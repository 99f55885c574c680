import GraphQuery.Checked.Expr
import GraphQuery.Table

/-!
# Declared parameters

The formal parameters of a query: names in the order of their declaration, each
declared once and with a kind.
-/

set_option autoImplicit false

namespace GraphQuery

/-- Parameters with their kinds. -/
abbrev Declarations := Table Identifier Kind

namespace Declarations

/-- Whether a parameter of the given name is declared. -/
def declares (d : Declarations) (name : String) : Bool :=
  d.keys.any fun id => id.text == name

/-- The kind at which a name is declared. -/
def kindOf? (d : Declarations) (name : String) : Option Kind :=
  (Identifier.of? name).bind d.get?

/-- Declares parameters one after the other. A name that is no identifier is
refused before one that is declared already. -/
def declareAll (d : Declarations) : List (String × Kind) → Except Error Declarations
  | [] => .ok d
  | (name, kind) :: rest =>
      match Identifier.check name with
      | .error e => .error e
      | .ok id =>
          if d.contains id then .error (.duplicateParameter id)
          else declareAll (d.insert id kind) rest

/-- The declarations of a list of names and kinds. -/
def ofList (params : List (String × Kind)) : Except Error Declarations :=
  declareAll Table.empty params

/-- Equality of declarations without regard to their order. -/
def same (d e : Declarations) : Bool := Table.sameBy (· == ·) d e

end Declarations

end GraphQuery
