import GraphQuery.Bindings
import GraphQuery.Declarations
import GraphQuery.Event
import GraphQuery.Fragment

/-!
# Templates

A parametrized fragment is compiled once into a template: its text, checked
against the declared parameters. A template is then paired with values as often
as needed. Compiling asks that every placeholder be declared, at a kind that its
declaration accepts; binding asks for exactly the declared names and only warns
of a value that does not fit.
-/

set_option autoImplicit false

namespace GraphQuery

/-- A part of a query with its formal parameters. -/
structure Parametrized (β : Type) where
  params : Declarations
  body : β

/-- Query text with the parameters that it takes. -/
structure Template where
  text : String
  params : Declarations

/-- Query text with a value for each parameter, in the order of declaration. -/
structure BoundStatement where
  text : String
  values : Table Identifier Value

namespace Declarations

/-- Checks one use of a placeholder. -/
def checkUse (d : Declarations) (use : Placeholder) : Except Error Unit :=
  match d.get? use.name with
  | none => .error (.undeclaredParameter use.name)
  | some kind =>
      if kind.accepts use.kind then .ok ()
      else .error (.kindConflict use.name kind use.kind)

/-- Checks uses of placeholders in order. -/
def checkUses (d : Declarations) : List Placeholder → Except Error Unit
  | [] => .ok ()
  | use :: rest => do
      d.checkUse use
      d.checkUses rest

/-- Declared names that are not among those used. -/
def unused (d : Declarations) (used : List Identifier) : List Identifier :=
  d.keys.filter fun name => name ∉ used

/-- Declared names for which no value is supplied. -/
def missing (d : Declarations) (values : Bindings) : List Identifier :=
  d.keys.filter fun name => !values.contains name.text

/-- Names of supplied values that are not declared. -/
def unexpected (d : Declarations) (values : Bindings) : List String :=
  values.keys.filter fun name => !d.declares name

end Declarations

/-- Compiles a parametrized fragment. The names that rendering draws stay drawn
when the check fails. -/
def Parametrized.compile (q : Parametrized Fragment) (layout : Layout)
    (supply : NameSupply) : Logged Template × NameSupply :=
  let drawn := q.body.render layout supply
  let rendered := drawn.1
  let started := Event.rendered rendered.text
  match q.params.checkUses rendered.uses with
  | .error e => (⟨.error e, [started]⟩, drawn.2)
  | .ok _ =>
      let warnings := (q.params.unused rendered.names).map Event.unusedParameter
      let finished := Event.compiled rendered.text.utf8ByteSize q.params.size
      (⟨.ok ⟨rendered.text, q.params⟩, started :: warnings ++ [finished]⟩, drawn.2)

namespace Template

/-- A warning if a value does not fit its declaration. -/
def misfit (name : Identifier) (kind : Kind) (value : Value) : List Event :=
  if value.fits kind then [] else [.misfit name kind value]

/-- Moves the values of the given names out of `left` and behind those in `bound`, name by
name. It ends at a name for which no value is left. -/
def fill (left : Bindings) (bound : Table Identifier Value) :
    List (Identifier × Kind) → Logged (Table Identifier Value)
  | [] => ⟨.ok bound, []⟩
  | (name, kind) :: rest =>
      match left.get? name.text with
      | none => ⟨.error (.parameterMismatch [name] []), []⟩
      | some value =>
          let others := fill (left.erase name.text) (bound.insert name value) rest
          ⟨others.result, misfit name kind value ++ others.events⟩

/-- Pairs a template with values. -/
def bind (t : Template) (values : Bindings) : Logged BoundStatement :=
  let missing := t.params.missing values
  let unexpected := t.params.unexpected values
  if missing.isEmpty && unexpected.isEmpty then
    let filled := fill values Table.empty t.params.entries
    match filled.result with
    | .error e => ⟨.error e, filled.events⟩
    | .ok bound => ⟨.ok ⟨t.text, bound⟩, filled.events ++ [.bound bound.size]⟩
  else ⟨.error (.parameterMismatch missing unexpected), []⟩

/-- Equality of templates, parameters without regard to order. -/
def same (t u : Template) : Bool := t.text == u.text && t.params.same u.params

end Template

namespace BoundStatement

/-- Equality of bound statements, values without regard to order. -/
def same (s t : BoundStatement) : Bool :=
  s.text == t.text && s.values.sameBy Value.same t.values

/-- The values as members of a JSON object. -/
def members (s : BoundStatement) : List (String × Json) :=
  s.values.entries.map fun (name, value) => (name.text, value.toJson)

/-- The statement and its parameters as JSON. -/
def toJson (s : BoundStatement) : Json :=
  .object [("statement", .string s.text), ("parameters", .object s.members)]

end BoundStatement

end GraphQuery
