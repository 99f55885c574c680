import GraphQuery.Fragment
import GraphQuery.Proofs.Merging.Tables

/-!
# Maps without repeated keys

A map literal and the properties of a pattern keep their entries in a list, in which no key
is meant to occur twice. What builds them from entries sees to that, a later value taking the
place of an earlier one. That it is so everywhere within a part is computed along the syntax.

Main statement: `Expr.mapDistinctKeys_ofList`.
-/

set_option autoImplicit false

namespace GraphQuery

namespace Expr

mutual

/-- Whether no map within an expression has a key twice. -/
def distinctKeys : Expr → Bool
  | .literal _ => true
  | .name _ => true
  | .placeholder _ => true
  | .call _ first rest => first.distinctKeys && listDistinctKeys rest
  | .map entries => decide (Entries.keys entries).Nodup && entriesDistinctKeys entries
  | .list items => listDistinctKeys items
  | .property subject _ => subject.distinctKeys
  | .index subject position => subject.distinctKeys && position.distinctKeys
  | .sliceFrom subject low => subject.distinctKeys && low.distinctKeys
  | .sliceTo subject high => subject.distinctKeys && high.distinctKeys
  | .slice subject low high => subject.distinctKeys && low.distinctKeys && high.distinctKeys
  | .unary _ operand => operand.distinctKeys
  | .binary _ left right => left.distinctKeys && right.distinctKeys
  | .case condition result more fallback =>
      condition.distinctKeys && result.distinctKeys && armsDistinctKeys more &&
        fallbackDistinctKeys fallback

/-- Whether no map within several expressions has a key twice. -/
def listDistinctKeys : List Expr → Bool
  | [] => true
  | e :: rest => e.distinctKeys && listDistinctKeys rest

/-- Whether no map within the expressions of entries has a key twice. -/
def entriesDistinctKeys : List (String × Expr) → Bool
  | [] => true
  | (_, e) :: rest => e.distinctKeys && entriesDistinctKeys rest

/-- Whether no map within the arms of a conditional has a key twice. -/
def armsDistinctKeys : List (Expr × Expr) → Bool
  | [] => true
  | (condition, result) :: rest =>
      condition.distinctKeys && result.distinctKeys && armsDistinctKeys rest

/-- Whether no map within an optional expression has a key twice. -/
def fallbackDistinctKeys : Option Expr → Bool
  | none => true
  | some e => e.distinctKeys

end

end Expr

/-- Whether a map has no key twice, and no map within it has. -/
def Expr.mapDistinctKeys (entries : List (String × Expr)) : Bool :=
  decide (Entries.keys entries).Nodup && Expr.entriesDistinctKeys entries

/-- Whether no map within a path has a key twice. -/
def Path.distinctKeys (p : Path) : Bool :=
  Expr.mapDistinctKeys p.start.properties &&
    p.steps.all fun (relationship, node) =>
      Expr.mapDistinctKeys relationship.properties && Expr.mapDistinctKeys node.properties

/-- Whether no map within a projection has a key twice. -/
def Projection.distinctKeys (p : Projection) : Bool :=
  p.items.all fun item => item.expr.distinctKeys

mutual

/-- Whether no map within a clause has a key twice. -/
def Clause.distinctKeys : Clause → Bool
  | .matching _ first more filter =>
      (first :: more).all Path.distinctKeys && Expr.fallbackDistinctKeys filter
  | .passing projection filter =>
      projection.distinctKeys && Expr.fallbackDistinctKeys filter
  | .unwind list _ => list.distinctKeys
  | .create path => path.distinctKeys
  | .setKey _ _ value => value.distinctKeys
  | .delete _ subject => subject.distinctKeys
  | .returning projection => projection.distinctKeys
  | .orderBy items => items.all fun item => item.expr.distinctKeys
  | .skip count => count.distinctKeys
  | .limit count => count.distinctKeys
  | .subquery body => body.distinctKeys
  | .choice arms => arms.distinctKeys

/-- Whether no map within a conditional has a key twice. -/
def Choice.distinctKeys : Choice → Bool
  | ⟨cases, fallback, _⟩ => Choice.casesDistinctKeys cases && fallback.distinctKeys

/-- Whether no map within the cases of a conditional has a key twice. -/
def Choice.casesDistinctKeys : List (Expr × Statement) → Bool
  | [] => true
  | (condition, arm) :: rest =>
      condition.distinctKeys && arm.distinctKeys && Choice.casesDistinctKeys rest

/-- Whether no map within a query has a key twice. -/
def Query.distinctKeys : Query → Bool
  | ⟨clauses⟩ => Clause.listDistinctKeys clauses

/-- Whether no map within several clauses has a key twice. -/
def Clause.listDistinctKeys : List Clause → Bool
  | [] => true
  | clause :: rest => clause.distinctKeys && Clause.listDistinctKeys rest

/-- Whether no map within several queries has a key twice. -/
def Query.listDistinctKeys : List Query → Bool
  | [] => true
  | query :: rest => query.distinctKeys && Query.listDistinctKeys rest

/-- Whether no map within a statement has a key twice. -/
def Statement.distinctKeys : Statement → Bool
  | ⟨first, more, _⟩ => first.distinctKeys && Query.listDistinctKeys more

end

/-- Whether no map within a fragment has a key twice. -/
def Fragment.distinctKeys : Fragment → Bool
  | .expr e => e.distinctKeys
  | .node n => Expr.mapDistinctKeys n.properties
  | .relationship r => Expr.mapDistinctKeys r.properties
  | .length _ => true
  | .path p => p.distinctKeys
  | .projection p => p.distinctKeys
  | .clause c => c.distinctKeys
  | .query q => q.distinctKeys
  | .statement s => s.distinctKeys

namespace Entries

variable {κ α : Type} [DecidableEq κ]

theorem mem_put {es : List (κ × α)} {key : κ} {value : α} {e : κ × α}
    (h : e ∈ put key value es) : e ∈ es ∨ e = (key, value) := by
  induction es with
  | nil => exact Or.inr (List.mem_singleton.1 h)
  | cons first rest ih =>
      obtain ⟨k, a⟩ := first
      rw [put] at h
      split at h
      · rcases List.mem_cons.1 h with rfl | hrest
        · exact Or.inr rfl
        · exact Or.inl (List.mem_cons_of_mem _ hrest)
      · rcases List.mem_cons.1 h with rfl | hrest
        · exact Or.inl List.mem_cons_self
        · exact (ih hrest).imp_left (List.mem_cons_of_mem _)

/-- What is put in is old or new. -/
theorem mem_putAll {es new : List (κ × α)} {e : κ × α} (h : e ∈ putAll es new) :
    e ∈ es ∨ e ∈ new := by
  induction new generalizing es with
  | nil => exact Or.inl h
  | cons first rest ih =>
      rcases ih h with hput | hrest
      · rcases mem_put hput with hes | rfl
        · exact Or.inl hes
        · exact Or.inr List.mem_cons_self
      · exact Or.inr (List.mem_cons_of_mem _ hrest)

end Entries

/-- A check along a list passes if it passes for each member. -/
theorem checkAll_iff {α : Type} {check : α → Bool} {checkAll : List α → Bool}
    (hnil : checkAll [] = true)
    (hcons : ∀ a rest, checkAll (a :: rest) = (check a && checkAll rest)) {l : List α} :
    checkAll l = true ↔ ∀ a ∈ l, check a = true := by
  induction l with
  | nil => exact iff_of_true hnil (List.forall_mem_nil _)
  | cons a rest ih => rw [hcons, Bool.and_eq_true, ih, List.forall_mem_cons]

/-- The values of a map have distinct keys together if each of them has. -/
theorem Expr.entriesDistinctKeys_iff {es : List (String × Expr)} :
    Expr.entriesDistinctKeys es = true ↔ ∀ e ∈ es, e.2.distinctKeys = true :=
  checkAll_iff rfl fun _ _ => rfl

/-- A map that is built from entries has no key twice, whatever the entries repeat. -/
theorem Expr.mapDistinctKeys_ofList {entries : List (String × Expr)}
    (h : ∀ e ∈ entries, e.2.distinctKeys = true) :
    Expr.mapDistinctKeys (Entries.ofList entries) = true := by
  have hnodup : (Entries.keys (Entries.ofList entries)).Nodup :=
    Entries.nodup_keys_putAll [] entries List.nodup_nil
  rw [Expr.mapDistinctKeys, Bool.and_eq_true, decide_eq_true_eq, Expr.entriesDistinctKeys_iff]
  refine ⟨hnodup, fun e he => ?_⟩
  rcases Entries.mem_putAll he with hnil | hmem
  · cases hnil
  · exact h e hmem

end GraphQuery
