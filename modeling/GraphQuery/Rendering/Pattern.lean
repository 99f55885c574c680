import GraphQuery.Rendering.Expr
import GraphQuery.Syntax.Pattern

/-!
# Text of graph patterns

A node stands in parentheses, a relationship between the two ends of an arrow.
Labels and types are quoted names; a relationship about which nothing is said is
written as the bare arrow.
-/

set_option autoImplicit false

namespace GraphQuery

/-- Pieces of an optional variable. -/
def variablePieces : Option Identifier → List Piece
  | none => []
  | some id => [.name id]

/-- Pieces of the properties of a pattern; `after` holds when something stands
before them inside the same brackets. -/
def propertyPieces (after : Bool) (properties : List (String × Expr)) : List Piece :=
  if properties.isEmpty then []
  else if after then .word " " :: Expr.mapPieces properties
  else Expr.mapPieces properties

/-- Pieces of the labels of a node. -/
def labelPieces (labels : List String) : List Piece :=
  labels.flatMap fun label => [.word ":", .quoted .backtick label]

/-- Pieces of the types of a relationship. -/
def typePieces : List String → List Piece
  | [] => []
  | first :: rest =>
      .word ":" :: .quoted .backtick first ::
        rest.flatMap fun type => [.word "|", .quoted .backtick type]

/-- Text of a length. -/
def Length.text : Length → String
  | .any => "*"
  | .exactly n => "*" ++ Number.naturalText n
  | .atLeast n => "*" ++ Number.naturalText n ++ ".."
  | .atMost n => "*.." ++ Number.naturalText n
  | .between low high => "*" ++ Number.naturalText low ++ ".." ++ Number.naturalText high

/-- Pieces of a length. -/
def Length.pieces (length : Length) : List Piece := [.word length.text]

/-- Pieces of an optional length. -/
def lengthPieces : Option Length → List Piece
  | none => []
  | some length => length.pieces

/-- Pieces of a node. -/
def NodePattern.pieces (n : NodePattern) : List Piece :=
  .word "(" :: variablePieces n.var ++ labelPieces n.labels ++
    propertyPieces (n.var.isSome || !n.labels.isEmpty) n.properties ++ [.word ")"]

/-- The left end of an arrow. -/
def Direction.tail : Direction → String
  | .left => "<-"
  | _ => "-"

/-- The right end of an arrow. -/
def Direction.head : Direction → String
  | .right => "->"
  | _ => "-"

/-- Pieces between the two ends of an arrow. -/
def RelationshipPattern.bodyPieces (r : RelationshipPattern) : List Piece :=
  .word "[" :: variablePieces r.var ++ typePieces r.types ++ lengthPieces r.length ++
    propertyPieces (r.var.isSome || !r.types.isEmpty || r.length.isSome) r.properties ++
      [.word "]"]

/-- Pieces of a relationship. -/
def RelationshipPattern.pieces (r : RelationshipPattern) : List Piece :=
  .word r.direction.tail :: (if r.isBare then [] else r.bodyPieces) ++
    [.word r.direction.head]

/-- Pieces of a path. -/
def Path.pieces (p : Path) : List Piece :=
  p.start.pieces ++ p.steps.flatMap fun (relationship, node) =>
    relationship.pieces ++ node.pieces

end GraphQuery
