import GraphQuery.Syntax.Expr

/-!
# Graph patterns

Patterns describe parts of a graph: nodes, the relationships between them, and
paths that alternate between the two.
-/

set_option autoImplicit false

namespace GraphQuery

/-- A node with labels and properties, optionally bound to a variable. -/
structure NodePattern where
  var : Option Identifier
  labels : List String
  properties : List (String × Expr)

/-- Direction of a relationship, read left to right. -/
inductive Direction where
  | right
  | left
  | both
  deriving DecidableEq

/-- How many relationships in a row a pattern stands for. -/
inductive Length where
  | any
  | exactly (n : Nat)
  | atLeast (n : Nat)
  | atMost (n : Nat)
  | between (low high : Nat)
  deriving DecidableEq

/-- A relationship of one of several types, optionally bound to a variable. -/
structure RelationshipPattern where
  direction : Direction
  var : Option Identifier
  types : List String
  length : Option Length
  properties : List (String × Expr)

/-- A node and the steps that lead on from it. -/
structure Path where
  start : NodePattern
  steps : List (RelationshipPattern × NodePattern)

namespace NodePattern

/-- The node pattern with properties given as entries; of a repeated key the
last expression counts. -/
def ofEntries (var : Option Identifier) (labels : List String)
    (entries : List (String × Expr)) : NodePattern :=
  ⟨var, labels, Entries.ofList entries⟩

end NodePattern

namespace RelationshipPattern

/-- The relationship pattern with properties given as entries; of a repeated key
the last expression counts. -/
def ofEntries (direction : Direction) (var : Option Identifier)
    (types : List String) (length : Option Length) (entries : List (String × Expr)) :
    RelationshipPattern :=
  ⟨direction, var, types, length, Entries.ofList entries⟩

/-- Whether nothing is written between the two ends of the arrow. -/
def isBare (r : RelationshipPattern) : Bool :=
  r.var.isNone && r.types.isEmpty && r.length.isNone && r.properties.isEmpty

end RelationshipPattern

end GraphQuery
