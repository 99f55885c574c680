import GraphQuery.Error
import GraphQuery.Syntax.Pattern

/-!
# Building expressions and patterns

Expressions built from plain texts and numbers. A name that is no identifier, a
float that is not finite and a call without arguments are refused.
-/

set_option autoImplicit false

namespace GraphQuery

/-- The identifier of the given text. -/
def Identifier.check (text : String) : Except Error Identifier :=
  match Identifier.of? text with
  | some id => .ok id
  | none => .error (.invalidIdentifier text)

namespace Expr

/-- A variable by its name. -/
def ofName (name : String) : Except Error Expr :=
  (Identifier.check name).map .name

/-- A placeholder by its name. -/
def ofPlaceholder (name : String) (kind : Kind) : Except Error Expr :=
  (Identifier.check name).map fun id => .placeholder ⟨id, kind⟩

/-- A float literal. -/
def ofFloat (x : Number.Binary64) : Except Error Expr :=
  match Number.FiniteDouble.of? x with
  | some finite => .ok (.literal (.float finite))
  | none => .error (.nonFiniteFloat x)

/-- A call with the given arguments. -/
def ofCall (function : String) (args : List Expr) : Except Error Expr :=
  match args with
  | first :: rest => .ok (.call function first rest)
  | [] => .error (.emptyArguments function)

end Expr

end GraphQuery
