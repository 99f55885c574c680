import GraphQuery.Identifier
import GraphQuery.Kind
import GraphQuery.Number.Binary64
import GraphQuery.Table

/-!
# Expressions

The syntax of expressions of the query language. Shapes that could not be
written are excluded by the types: names written bare are identifiers, a call
has a first argument, a conditional has a first arm, and a slice has at least
one bound.
-/

set_option autoImplicit false

namespace GraphQuery

/-- Scalars written out in the query. -/
inductive Literal where
  | null
  | bool (b : Bool)
  | int (n : Int)
  | float (x : Number.FiniteDouble)
  | string (s : String)
  deriving DecidableEq

/-- A named gap in the query, to be filled by a value of the given kind. -/
structure Placeholder where
  name : Identifier
  kind : Kind
  deriving DecidableEq

/-- Operators with one operand. -/
inductive UnaryOp where
  | not
  | isNull
  | isNotNull
  deriving DecidableEq

/-- Operators with two operands. -/
inductive BinaryOp where
  | isIn
  | startsWith
  | endsWith
  | contains
  | or
  | and
  | xor
  | less
  | lessEq
  | greaterEq
  | greater
  | eq
  | notEq
  deriving DecidableEq

/-- The word or sign between the operands. -/
def BinaryOp.word : BinaryOp → String
  | .isIn => "IN"
  | .startsWith => "STARTS WITH"
  | .endsWith => "ENDS WITH"
  | .contains => "CONTAINS"
  | .or => "OR"
  | .and => "AND"
  | .xor => "XOR"
  | .less => "<"
  | .lessEq => "<="
  | .greaterEq => ">="
  | .greater => ">"
  | .eq => "="
  | .notEq => "<>"

/-- Expressions. The entries of a map keep their order. -/
inductive Expr where
  | literal (value : Literal)
  | name (var : Identifier)
  | placeholder (p : Placeholder)
  | call (function : String) (first : Expr) (rest : List Expr)
  | map (entries : List (String × Expr))
  | list (items : List Expr)
  | property (subject : Expr) (key : String)
  | index (subject : Expr) (position : Expr)
  | sliceFrom (subject : Expr) (low : Expr)
  | sliceTo (subject : Expr) (high : Expr)
  | slice (subject : Expr) (low : Expr) (high : Expr)
  | unary (op : UnaryOp) (operand : Expr)
  | binary (op : BinaryOp) (left : Expr) (right : Expr)
  | case (condition : Expr) (result : Expr) (more : List (Expr × Expr))
      (fallback : Option Expr)

namespace Expr

/-- The map of a list of entries; of a repeated key the last expression counts. -/
def ofEntries (entries : List (String × Expr)) : Expr := .map (Entries.ofList entries)

/-- Expressions built by an operator, which stand in parentheses as operands. -/
def isOperator : Expr → Bool
  | .unary .. => true
  | .binary .. => true
  | _ => false

/-- Number of arms of a conditional, not counting its fallback. -/
def armCount? : Expr → Option Nat
  | .case _ _ more _ => some (more.length + 1)
  | _ => none

end Expr

end GraphQuery
