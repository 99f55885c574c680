/-!
# Kinds of values

The kind of a value is what declarations promise and placeholders expect. `any`
stands for a kind that is not known. Two kinds are compatible when the same
value could have both: `accepts` looks through lists and lets `any` meet every
kind on either side.
-/

set_option autoImplicit false

namespace GraphQuery

/-- Kinds of values. -/
inductive Kind where
  | any
  | boolean
  | integer
  | float
  | string
  | list (element : Kind)
  | map
  | node
  | relationship
  deriving DecidableEq

namespace Kind

/-- Whether a value of kind `other` may stand where `self` is expected. -/
def accepts : Kind → Kind → Bool
  | .any, _ => true
  | _, .any => true
  | .list a, .list b => a.accepts b
  | a, b => a == b

/-- The written name of a kind. -/
def name : Kind → String
  | .any => "ANY"
  | .boolean => "BOOLEAN"
  | .integer => "INTEGER"
  | .float => "FLOAT"
  | .string => "STRING"
  | .list element => "LIST<" ++ element.name ++ ">"
  | .map => "MAP"
  | .node => "NODE"
  | .relationship => "RELATIONSHIP"

end Kind

end GraphQuery
