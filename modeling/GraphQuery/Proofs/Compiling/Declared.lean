import GraphQuery.Conditional
import GraphQuery.Proofs.Binding.Filling
import GraphQuery.Proofs.Compiling.Uses

/-!
# Compiling declared placeholders

A parametrized fragment compiles exactly if every occurrence of a placeholder in it is
declared at a kind that accepts it, and what comes out is closed: whatever the text names
behind a dollar sign is declared and has a value as soon as values are bound. The check that
precedes a merge looks at the names alone and finds the first that is not declared.

Main statement: `Parametrized.compile_declared`.
-/

set_option autoImplicit false

namespace GraphQuery

/-- Repetitions make no difference to the first element that is found. -/
theorem find?_eraseDups {α : Type} [DecidableEq α] (p : α → Bool) (as : List α) :
    as.eraseDups.find? p = as.find? p := by
  induction as using List.reverseRecOn with
  | nil => rfl
  | append_singleton as a ih =>
      rw [eraseDups_concat, List.find?_append, ← ih]
      split
      · next hmem =>
          cases hfound : as.eraseDups.find? p with
          | some b => rfl
          | none =>
              have ha := List.find?_eq_none.1 hfound a (List.mem_eraseDups.2 hmem)
              rw [List.find?_cons_of_neg ha]
              rfl
      · rw [List.find?_append]

namespace Parametrized

section Undeclared

variable {β : Type} [Renameable β] {q : Parametrized β} {name : Identifier}

/-- The undeclared name that is reported is that of the first placeholder without a declaration.
-/
theorem undeclared?_eq (q : Parametrized β) : q.undeclared? =
    ((Renameable.placeholders q.body).find? fun use => !q.params.contains use.name).map
      Placeholder.name := by
  rw [undeclared?, placeholderNames, find?_eraseDups, List.find?_map]
  rfl

/-- The name that is found is that of the first occurrence that is not declared. -/
theorem undeclared?_eq_some_iff : q.undeclared? = some name ↔
    ∃ before use after, Renameable.placeholders q.body = before ++ use :: after ∧
      (∀ u ∈ before, u.name ∈ q.params.keys) ∧ use.name ∉ q.params.keys ∧ use.name = name := by
  rw [undeclared?_eq, Option.map_eq_some_iff]
  simp only [List.find?_eq_some_iff_append, Bool.not_eq_true', Bool.not_not, Table.contains_iff,
    ← Bool.not_eq_true]
  constructor
  · rintro ⟨use, ⟨huse, before, after, hsplit, hbefore⟩, hname⟩
    exact ⟨before, use, after, hsplit, hbefore, huse, hname⟩
  · rintro ⟨before, use, after, hsplit, hbefore, huse, hname⟩
    exact ⟨use, ⟨huse, before, after, hsplit, hbefore⟩, hname⟩

/-- Nothing is reported if all placeholders are declared. -/
theorem undeclared?_eq_none_iff : q.undeclared? = none ↔
    ∀ use ∈ Renameable.placeholders q.body, use.name ∈ q.params.keys := by
  rw [undeclared?_eq, Option.map_eq_none_iff, List.find?_eq_none]
  simp [Table.contains_iff]

end Undeclared

end Parametrized

/-- The dollar signs of a rendered text that stand outside quotes name the placeholders. -/
theorem Fragment.parameters?_text (a : Fragment) (layout : Layout) (supply : NameSupply) :
    Text.parameters? (a.render layout supply).1.text =
      some (a.placeholders.map fun p => p.name.text) := by
  have htext := Piece.parameters?_write (a.wellSpaced_pieces supply) layout
  rw [a.placeholders_pieces] at htext
  exact htext

/-- A template is closed if every dollar sign of its text that stands outside quotes names a
parameter, which has a value in whatever the template is bound to. -/
def Template.Closed (t : Template) : Prop :=
  ∃ names, Text.parameters? t.text = some names ∧ ∀ name ∈ names, ∃ id ∈ t.params.keys,
    id.text = name ∧ ∀ values b, (t.bind values).result = .ok b →
      ∃ value, b.values.get? id = some value

namespace Template

/-- Every parameter has a value in a bound statement. -/
theorem exists_value_of_bind {t : Template} {values : Bindings} {b : BoundStatement}
    (h : (t.bind values).result = .ok b) {id : Identifier} (hid : id ∈ t.params.keys) :
    ∃ value, b.values.get? id = some value := by
  by_cases hsupplies : values.Supplies t.params
  · obtain ⟨bound, hbound, -, hkeys, -⟩ := bind_of_supplies hsupplies
    rw [h] at hbound
    cases hbound
    rw [← Table.mem_keys_iff, hkeys]
    exact hid
  · rw [bind_eq_error hsupplies] at h
    cases h

/-- A template is closed if the parameters in its text are declared. -/
theorem closed_of_text {t : Template} {uses : List Placeholder}
    (htext : Text.parameters? t.text = some (uses.map fun p => p.name.text))
    (huses : ∀ use ∈ uses, use.name ∈ t.params.keys) : t.Closed := by
  refine ⟨_, htext, fun name hname => ?_⟩
  obtain ⟨use, huse, rfl⟩ := List.mem_map.1 hname
  have hid := huses use huse
  exact ⟨use.name, hid, rfl, fun values b hb => exists_value_of_bind hb hid⟩

end Template

namespace Parametrized

open Declarations (checkUses_ok_iff checkUses_error_iff)

section Compile

variable {q : Parametrized Fragment} {layout : Layout} {supply : NameSupply}

/-- A fragment compiles if its declarations take every placeholder at every occurrence, in
whatever layout and with whatever supply. -/
theorem compile_ok_iff : (∃ t, (q.compile layout supply).1.result = .ok t) ↔
    ∀ use ∈ q.body.placeholders, q.params.Takes use := by
  rw [result_compile, ← checkUses_ok_iff]
  cases q.params.checkUses q.body.placeholders with
  | error e =>
      constructor
      · rintro ⟨t, ⟨⟩⟩
      · rintro ⟨⟩
  | ok _ => exact ⟨fun _ => rfl, fun _ => ⟨_, rfl⟩⟩

/-- Compiling fails with the reason why the first placeholder is refused that the declarations do
not take. -/
theorem compile_error_iff {e : Error} : (q.compile layout supply).1.result = .error e ↔
    ∃ before use after, q.body.placeholders = before ++ use :: after ∧
      (∀ u ∈ before, q.params.Takes u) ∧ q.params.Refuses use e := by
  rw [result_compile, ← checkUses_error_iff]
  cases q.params.checkUses q.body.placeholders with
  | error found =>
      constructor
      · rintro ⟨⟩
        rfl
      · rintro ⟨⟩
        rfl
  | ok _ =>
      constructor
      · rintro ⟨⟩
      · rintro ⟨⟩

/-- A template has the rendered text and all the declared parameters. -/
theorem eq_of_compile {t : Template} (h : (q.compile layout supply).1.result = .ok t) :
    t = ⟨(q.body.render layout supply).1.text, q.params⟩ := by
  rw [result_compile] at h
  cases hcheck : q.params.checkUses q.body.placeholders with
  | error e => rw [hcheck] at h; cases h
  | ok _ => rw [hcheck] at h; cases h; rfl

/-- The template of a fragment has no parameter that is not declared. -/
theorem closed_of_compile {t : Template} (h : (q.compile layout supply).1.result = .ok t) :
    t.Closed := by
  have htakes := compile_ok_iff.1 ⟨t, h⟩
  obtain rfl := eq_of_compile h
  refine Template.closed_of_text (q.body.parameters?_text layout supply) fun use huse => ?_
  obtain ⟨kind, hkind, -⟩ := htakes use huse
  exact Table.mem_keys_iff.2 ⟨kind, hkind⟩

/-- A fragment compiles exactly if every occurrence of a placeholder is declared at a kind
that accepts it; otherwise the error is that of the first occurrence that is not, in every
layout and with every supply. A template has the rendered text and the declared parameters,
and it is closed. The check that looks at names alone finds the first occurrence whose name
is not declared, and where it finds none a fragment fails only by a conflict of kinds. -/
theorem compile_declared (q : Parametrized Fragment) (layout : Layout) (supply : NameSupply) :
    ((∃ t, (q.compile layout supply).1.result = .ok t) ↔
      ∀ use ∈ q.body.placeholders, q.params.Takes use) ∧
    (∀ e, (q.compile layout supply).1.result = .error e ↔
      ∃ before use after, q.body.placeholders = before ++ use :: after ∧
        (∀ u ∈ before, q.params.Takes u) ∧ q.params.Refuses use e) ∧
    (∀ layout' supply', (q.compile layout' supply').1.result.map Template.params =
      (q.compile layout supply).1.result.map Template.params) ∧
    (∀ t, (q.compile layout supply).1.result = .ok t →
      t.text = (q.body.render layout supply).1.text ∧ t.params = q.params ∧ t.Closed) ∧
    (∀ name, q.undeclared? = some name ↔
      ∃ before use after, q.body.placeholders = before ++ use :: after ∧
        (∀ u ∈ before, u.name ∈ q.params.keys) ∧ use.name ∉ q.params.keys ∧ use.name = name) ∧
    (q.undeclared? = none → ∀ e, (q.compile layout supply).1.result = .error e →
      ∃ name declared used, e = .kindConflict name declared used) := by
  refine ⟨compile_ok_iff, fun e => compile_error_iff, ?_, ?_, fun name => undeclared?_eq_some_iff,
    ?_⟩
  · intro layout' supply'
    rw [result_compile, result_compile]
    cases q.params.checkUses q.body.placeholders with
    | error e => rfl
    | ok _ => rfl
  · intro t ht
    have hclosed := closed_of_compile ht
    obtain rfl := eq_of_compile ht
    exact ⟨rfl, rfl, hclosed⟩
  · intro hnone e he
    obtain ⟨before, use, after, hsplit, -, hrefuses⟩ := compile_error_iff.1 he
    cases hrefuses with
    | undeclared hmissing =>
        have huse : use ∈ q.body.placeholders := by
          rw [hsplit]
          simp
        have hdeclared := undeclared?_eq_none_iff.1 hnone use huse
        exact absurd hdeclared (Table.get?_eq_none_iff.1 hmissing)
    | @conflict kind hkind haccepts => exact ⟨use.name, kind, use.kind, rfl⟩

end Compile

namespace Sample

def size : Identifier := ⟨"size", by decide⟩

/-- A number that is used as a number first, as a truth value next and again as a number. -/
def compared : Parametrized Fragment :=
  ⟨⟨[(size, .integer)], by decide⟩, .expr (.list [.placeholder ⟨size, .integer⟩,
    .placeholder ⟨size, .boolean⟩, .placeholder ⟨size, .integer⟩])⟩

end Sample

/-- The first offence comes second, and only the kinds are at fault. -/
theorem compile_declared_conflict :
    (Sample.compared.compile .pretty .fresh).1.result =
      .error (.kindConflict Sample.size .integer .boolean) ∧
    Sample.compared.undeclared? = none := by
  obtain ⟨-, herror, -, -, hnames, -⟩ := compile_declared Sample.compared .pretty .fresh
  constructor
  · rw [herror]
    refine ⟨[⟨Sample.size, .integer⟩], ⟨Sample.size, .boolean⟩, [⟨Sample.size, .integer⟩], rfl, ?_,
      .conflict rfl rfl⟩
    intro u hu
    rw [List.mem_singleton.1 hu]
    exact ⟨.integer, rfl, rfl⟩
  · rw [Option.eq_none_iff_forall_ne_some]
    intro name hname
    obtain ⟨before, use, after, hsplit, -, huse, -⟩ := (hnames name).1 hname
    have hmem : use ∈ Sample.compared.body.placeholders := by
      rw [hsplit]
      simp
    refine huse ?_
    have hall : ∀ u ∈ Sample.compared.body.placeholders, u.name ∈ Sample.compared.params.keys := by
      decide
    exact hall use hmem

end Parametrized

end GraphQuery
