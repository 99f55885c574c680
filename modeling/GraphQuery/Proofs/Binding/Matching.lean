import GraphQuery.Proofs.Binding.Filling

/-!
# Matching names

A template asks for a value of each of its parameters and for no other value. What it gets
is judged by the names alone, so neither the kinds of the values nor the order in which they
were supplied decide whether it is taken.

Main statement: `Template.bind_matching`.
-/

set_option autoImplicit false

namespace GraphQuery

namespace Bindings

variable {values others : Bindings}

/-- Bindings with the same values by name have the same names, perhaps in another order. -/
theorem keys_perm_of_get?_eq (h : ∀ name, others.get? name = values.get? name) :
    others.keys.Perm values.keys := by
  refine (List.perm_ext_iff_of_nodup others.nodup values.nodup).2 fun name => ?_
  show name ∈ others.keys ↔ name ∈ values.keys
  rw [Table.mem_keys_iff, Table.mem_keys_iff, h]

end Bindings

namespace Template

section Match

variable {t : Template} {values others : Bindings}

/-- Missing names are the declared ones without a value, in the order of their declaration. -/
theorem missing_eq (d : Declarations) (values : Bindings) :
    d.missing values = d.keys.filter fun name => name.text ∉ values.keys :=
  List.filter_congr fun _ _ => decide_not.symm

/-- Unexpected names are those of values without a declaration, in the order of the values. -/
theorem unexpected_eq (d : Declarations) (values : Bindings) : d.unexpected values =
    values.keys.filter fun name => name ∉ d.keys.map Identifier.text := by
  refine List.filter_congr fun name _ => ?_
  rw [decide_not, Bool.eq_iff_iff, Bool.not_eq_true', Bool.not_eq_true', decide_eq_false_iff_not,
    Bindings.mem_texts_iff, Bool.not_eq_true]

/-- A template takes bindings or names what does not match, and does nothing else. -/
theorem bind_ok_or_mismatch (t : Template) (values : Bindings) :
    (values.Supplies t.params ∧ ∃ b, (t.bind values).result = .ok b) ∨
    (¬ values.Supplies t.params ∧ (t.bind values).result =
      .error (.parameterMismatch (t.params.missing values) (t.params.unexpected values))) := by
  by_cases h : values.Supplies t.params
  · obtain ⟨b, hb, -⟩ := bind_of_supplies h
    exact .inl ⟨h, b, hb⟩
  · exact .inr ⟨h, by rw [bind_eq_error h]⟩

/-- Values can be bound if they are those that are declared. -/
theorem bind_ok_iff : (∃ b, (t.bind values).result = .ok b) ↔ values.Supplies t.params := by
  rcases bind_ok_or_mismatch t values with ⟨h, hok⟩ | ⟨h, herror⟩
  · exact ⟨fun _ => h, fun _ => hok⟩
  · rw [herror]
    constructor
    · rintro ⟨b, ⟨⟩⟩
    · exact fun hsupplies => absurd hsupplies h

/-- The order in which values are supplied shows in the list of unexpected names only. -/
theorem bind_of_get?_eq (h : ∀ name, others.get? name = values.get? name) :
    (∀ b, (t.bind values).result = .ok b → t.bind others = t.bind values) ∧
    ∀ missing unexpected,
      (t.bind values).result = .error (.parameterMismatch missing unexpected) →
        ∃ reordered, (t.bind others).result = .error (.parameterMismatch missing reordered) ∧
          reordered.Perm unexpected := by
  have hperm := Bindings.keys_perm_of_get?_eq h
  have hsupplies : others.Supplies t.params ↔ values.Supplies t.params := by
    rw [Bindings.supplies_iff, Bindings.supplies_iff]
    exact forall_congr' fun name => by rw [hperm.mem_iff]
  constructor
  · intro b hb
    have hvalues := bind_ok_iff.1 ⟨b, hb⟩
    have hsame : ∀ param ∈ t.params.entries,
        others.get? param.1.text = values.get? param.1.text := fun param _ => h param.1.text
    rw [bind_eq_ok hvalues, bind_eq_ok (hsupplies.2 hvalues), select_congr hsame,
      misfits_congr hsame]
  · intro missing unexpected herror
    have hvalues : ¬ values.Supplies t.params := by
      intro hvalues
      obtain ⟨b, hb⟩ := bind_ok_iff.2 hvalues
      rw [hb] at herror
      cases herror
    rw [bind_eq_error hvalues] at herror
    cases herror
    refine ⟨t.params.unexpected others, ?_, hperm.filter _⟩
    have hmissing : t.params.missing others = t.params.missing values := by
      rw [missing_eq, missing_eq]
      exact List.filter_congr fun name _ => decide_eq_decide.2 (not_congr hperm.mem_iff)
    rw [bind_eq_error (mt hsupplies.1 hvalues), hmissing]

/-- A template takes bindings exactly if they name its parameters and nothing else. It then
holds the supplied values in the order of declaration; otherwise it tells which declared
names have no value and which values have no declared name. The loop that moves the values
never lacks one once the names match, and the order of supply makes no difference. -/
theorem bind_matching (t : Template) (values : Bindings) :
    ((∃ b, (t.bind values).result = .ok b) ↔
      ∀ name, name ∈ values.keys ↔ name ∈ t.params.keys.map Identifier.text) ∧
    (∀ b, (t.bind values).result = .ok b →
      b.text = t.text ∧ b.values.keys = t.params.keys ∧
        ∀ name ∈ t.params.keys, ∃ value,
          values.get? name.text = some value ∧ b.values.get? name = some value) ∧
    (∀ e, (t.bind values).result = .error e →
      e = .parameterMismatch (t.params.keys.filter fun name => name.text ∉ values.keys)
        (values.keys.filter fun name => name ∉ t.params.keys.map Identifier.text)) ∧
    (t.params.missing values = [] → t.params.unexpected values = [] →
      ∃ bound, (fill values Table.empty t.params.entries).result = .ok bound) ∧
    ∀ others : Bindings, (∀ name, others.get? name = values.get? name) →
      (∀ b, (t.bind values).result = .ok b → t.bind others = t.bind values) ∧
      ∀ missing unexpected,
        (t.bind values).result = .error (.parameterMismatch missing unexpected) →
          ∃ reordered, (t.bind others).result = .error (.parameterMismatch missing reordered) ∧
            reordered.Perm unexpected := by
  refine ⟨?_, ?_, ?_, ?_, fun others h => bind_of_get?_eq h⟩
  · rw [bind_ok_iff, Bindings.supplies_iff]
  · intro b hb
    have hsupplies := bind_ok_iff.1 ⟨b, hb⟩
    obtain ⟨bound, hbound, htext, hkeys, hvalues⟩ := bind_of_supplies hsupplies
    obtain rfl : bound = b := by rwa [hbound, Except.ok.injEq] at hb
    refine ⟨htext, hkeys, fun name hname => ?_⟩
    obtain ⟨value, hvalue⟩ := Table.mem_keys_iff.1 (Bindings.mem_keys_of_supplies hsupplies hname)
    exact ⟨value, hvalue, (hvalues name hname).trans hvalue⟩
  · intro e he
    rcases bind_ok_or_mismatch t values with ⟨-, b, hb⟩ | ⟨-, herror⟩
    · rw [hb] at he
      cases he
    · rw [herror] at he
      cases he
      rw [missing_eq, unexpected_eq]
  · intro hmissing hunexpected
    rw [fill_of_supplies (supplies_iff_matched.2 ⟨hmissing, hunexpected⟩)]
    exact ⟨_, rfl⟩

end Match

namespace Sample

def low : Identifier := ⟨"low", by decide⟩

def high : Identifier := ⟨"high", by decide⟩

/-- A template whose first parameter is declared as a number. -/
def template : Template := ⟨"RETURN $low, $high", ⟨[(low, .integer), (high, .any)], by decide⟩⟩

/-- Values in another order, a text among them in place of the number. -/
def values : Bindings := ⟨[("high", .null), ("low", .string "one")], by decide⟩

end Sample

/-- Both values are bound in the order of the declarations, which is not theirs, and the one that
does not fit is bound, too. -/
theorem bind_matching_swapped :
    (∀ name, name ∈ Sample.values.keys ↔
      name ∈ Sample.template.params.keys.map Identifier.text) ∧
    ∃ b, (Sample.template.bind Sample.values).result = .ok b ∧
      b.values.keys = [Sample.low, Sample.high] ∧
      b.values.get? Sample.low = some (.string "one") := by
  have hnames : ∀ name, name ∈ Sample.values.keys ↔
      name ∈ Sample.template.params.keys.map Identifier.text := by
    intro name
    show name ∈ ["high", "low"] ↔ name ∈ ["low", "high"]
    simp only [List.mem_cons, List.not_mem_nil, or_false]
    exact or_comm
  obtain ⟨hiff, hok, -⟩ := bind_matching Sample.template Sample.values
  obtain ⟨b, hb⟩ := hiff.2 hnames
  obtain ⟨-, hkeys, hvalues⟩ := hok b hb
  obtain ⟨value, hvalue, hbound⟩ := hvalues Sample.low List.mem_cons_self
  cases hvalue
  exact ⟨hnames, b, hb, hkeys, hbound⟩

end Template

end GraphQuery
