import GraphQuery.Renaming
import GraphQuery.Value

/-!
# Bindings

Actual values by parameter name, in the order in which they are supplied. A name
supplied again keeps its place and takes the new value.
-/

set_option autoImplicit false

namespace GraphQuery

/-- Values by name. -/
abbrev Bindings := Table String Value

namespace Bindings

/-- Adds the bindings of `other`, which win over earlier ones of the same name. -/
def merge (b other : Bindings) : Bindings := b.insertAll other.entries

/-- The bindings under new names; names that the renaming lacks stay. Where two
names fall together the later value is kept at the place of the earlier. -/
def renamed (b : Bindings) (r : Renaming) : Bindings :=
  Table.ofList (b.entries.map fun (name, value) => (r.applyText name, value))

/-- Equality without regard to order, of values as by `Value.same`. -/
def same (b c : Bindings) : Bool := Table.sameBy Value.same b c

/-- The bindings as a JSON object. -/
def toJson (b : Bindings) : Json :=
  .object (b.entries.map fun (name, value) => (name, value.toJson))

end Bindings

end GraphQuery
