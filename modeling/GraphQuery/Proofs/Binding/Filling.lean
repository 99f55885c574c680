import GraphQuery.Proofs.Merging.Supply
import GraphQuery.Proofs.Merging.Tables
import GraphQuery.Template
import Mathlib.Data.List.Nodup
import Mathlib.Data.List.Perm.Basic

/-!
# Filling a template

Binding moves values out of the bindings, one for each declared name, and would stop at a
name for which none is left. As long as the names to come are distinct and all of them have
a value, a move leaves this so: it takes away the value of the first name only.

Main statements: `Template.fill_eq`, the moves end with every value in its place, and
`Template.bind_of_supplies`, a template takes bindings that supply its parameters.
-/

set_option autoImplicit false

namespace GraphQuery

/-! ## Removed keys -/

/-- Leaving out the entries of one key changes the lookup of no other key. -/
theorem Entries.lookup_filter_ne {κ α : Type} [DecidableEq κ] {key k : κ} (h : k ≠ key)
    (es : List (κ × α)) : (es.filter fun e => e.1 ≠ key).lookup k = es.lookup k := by
  induction es with
  | nil => rfl
  | cons e rest ih =>
      obtain ⟨k', a⟩ := e
      rw [lookup_cons]
      by_cases hkey : k' = key
      · rw [List.filter_cons_of_neg (by simp [hkey]), ih, if_neg (hkey ▸ h)]
      · rw [List.filter_cons_of_pos (by simp [hkey]), lookup_cons, ih]

theorem Table.get?_erase_of_ne {κ α : Type} [DecidableEq κ] {key k : κ} (h : k ≠ key)
    (t : Table κ α) : (t.erase key).get? k = t.get? k :=
  Entries.lookup_filter_ne h t.entries

/-! ## Bindings that supply declarations -/

namespace Bindings

/-- Bindings that give a value to each declared name and to no other. -/
def Supplies (b : Bindings) (d : Declarations) : Prop :=
  ∀ name, b.contains name = d.declares name

/-- The texts of the declared names are the names that are declared. -/
theorem mem_texts_iff {d : Declarations} {name : String} :
    name ∈ d.keys.map Identifier.text ↔ d.declares name = true := by
  simp [Declarations.declares]

/-- Bindings supply declarations if they have the declared names as keys, and no others. -/
theorem supplies_iff {b : Bindings} {d : Declarations} :
    b.Supplies d ↔ ∀ name, name ∈ b.keys ↔ name ∈ d.keys.map Identifier.text := by
  refine forall_congr' fun name => ?_
  rw [mem_texts_iff, ← Table.contains_iff, ← Bool.eq_iff_iff]

/-- The names of the values are the declared names, perhaps in another order. -/
theorem supplies_iff_perm {b : Bindings} {d : Declarations} :
    b.Supplies d ↔ b.keys.Perm (d.keys.map Identifier.text) := by
  have hkeys : b.keys.Nodup := b.nodup
  have htexts : (d.keys.map Identifier.text).Nodup := Identifier.nodup_texts d.nodup
  rw [List.perm_ext_iff_of_nodup hkeys htexts, supplies_iff]

theorem mem_keys_of_supplies {b : Bindings} {d : Declarations} (h : b.Supplies d)
    {name : Identifier} (hname : name ∈ d.keys) : name.text ∈ b.keys :=
  (supplies_iff_perm.1 h).mem_iff.2 (List.mem_map_of_mem hname)

end Bindings

namespace Template

/-! ## The moves -/

/-- The values of the given names, in the order of the names. -/
def select (values : Bindings) (params : List (Identifier × Kind)) :
    List (Identifier × Value) :=
  params.filterMap fun (name, _) => (values.get? name.text).map (name, ·)

/-- The warnings for the values of the given names, in the order of the names. -/
def misfits (values : Bindings) (params : List (Identifier × Kind)) : List Event :=
  params.flatMap fun (name, kind) => (values.get? name.text).elim [] (misfit name kind)

section Moves

variable {values values' left : Bindings} {params : List (Identifier × Kind)}

/-- What is selected of bindings depends on the values of the declared names only. -/
theorem select_congr (h : ∀ param ∈ params, values.get? param.1.text = values'.get? param.1.text) :
    select values params = select values' params := by
  refine List.filterMap_congr ?_
  rintro ⟨name, kind⟩ hparam
  exact congrArg (Option.map (name, ·)) (h _ hparam)

/-- So do the misfits that are reported. -/
theorem misfits_congr
    (h : ∀ param ∈ params, values.get? param.1.text = values'.get? param.1.text) :
    misfits values params = misfits values' params := by
  refine List.flatMap_congr ?_
  rintro ⟨name, kind⟩ hparam
  exact congrArg (fun value => Option.elim value [] (misfit name kind)) (h _ hparam)

/-- One move: the value of the first name goes behind those that are bound. -/
theorem fill_cons {name : Identifier} {kind : Kind} {value : Value}
    (hvalue : left.get? name.text = some value) (bound : Table Identifier Value) :
    fill left bound ((name, kind) :: params) =
      ⟨(fill (left.erase name.text) (bound.insert name value) params).result,
        misfit name kind value ++
          (fill (left.erase name.text) (bound.insert name value) params).events⟩ := by
  rw [fill, hvalue]

/-- The moves never lack a value if all names have one at first. -/
theorem fill_eq (hnames : (Entries.keys params).Nodup)
    (hpresent : ∀ param ∈ params, param.1.text ∈ left.keys) (bound : Table Identifier Value) :
    fill left bound params = ⟨.ok (bound.insertAll (select left params)), misfits left params⟩ := by
  induction params generalizing left bound with
  | nil => rfl
  | cons param rest ih =>
      obtain ⟨name, kind⟩ := param
      obtain ⟨hname, hnodup⟩ := List.nodup_cons.1 hnames
      obtain ⟨hfirst, hrest⟩ := List.forall_mem_cons.1 hpresent
      obtain ⟨value, hvalue⟩ := Table.mem_keys_iff.1 hfirst
      -- the first name does not come again, so the names to come keep their values
      have hleft : ∀ param ∈ rest,
          (left.erase name.text).get? param.1.text = left.get? param.1.text := by
        intro param hparam
        refine Table.get?_erase_of_ne (fun htext => hname ?_) left
        exact List.mem_map.2 ⟨param, hparam, Identifier.ext_text htext⟩
      have hkept : ∀ param ∈ rest, param.1.text ∈ (left.erase name.text).keys := by
        intro param hparam
        obtain ⟨kept, hget⟩ := Table.mem_keys_iff.1 (hrest param hparam)
        exact Table.mem_keys_iff.2 ⟨kept, (hleft param hparam).trans hget⟩
      have hselect : select left ((name, kind) :: rest) = (name, value) :: select left rest := by
        simp [select, hvalue]
      have hmisfits : misfits left ((name, kind) :: rest) =
          misfit name kind value ++ misfits left rest := by
        simp [misfits, hvalue]
      rw [fill_cons hvalue, ih hnodup hkept, select_congr hleft, misfits_congr hleft, hselect,
        hmisfits]
      rfl

end Moves

/-! ## Bound statements -/

/-- A value is selected for each declared name, in the order of the declarations. -/
theorem keys_select {values : Bindings} : ∀ {params : List (Identifier × Kind)},
    (∀ name ∈ Entries.keys params, name.text ∈ values.keys) →
      Entries.keys (select values params) = Entries.keys params
  | [], _ => rfl
  | (name, kind) :: rest, h => by
      obtain ⟨hname, hrest⟩ := List.forall_mem_cons.1 h
      obtain ⟨value, hvalue⟩ := Table.mem_keys_iff.1 hname
      have hselect :
          select values ((name, kind) :: rest) = (name, value) :: select values rest := by
        simp [select, hvalue]
      rw [hselect]
      exact congrArg (name :: ·) (keys_select hrest)

theorem mem_select {values : Bindings} {params : List (Identifier × Kind)} {name : Identifier}
    {value : Value} (hname : name ∈ Entries.keys params)
    (hvalue : values.get? name.text = some value) : (name, value) ∈ select values params := by
  obtain ⟨⟨name, kind⟩, hmem, rfl⟩ := List.mem_map.1 hname
  exact List.mem_filterMap.2 ⟨(name, kind), hmem, by simp [hvalue]⟩

section Bind

variable {t : Template} {values : Bindings}

/-- Nothing is missing if each declared name has a value. -/
theorem missing_eq_nil_iff :
    t.params.missing values = [] ↔ ∀ name ∈ t.params.keys, name.text ∈ values.keys := by
  rw [Declarations.missing, List.filter_eq_nil_iff]
  simp [← Table.contains_iff]

/-- Nothing is unexpected if each value has a declared name. -/
theorem unexpected_eq_nil_iff : t.params.unexpected values = [] ↔
    ∀ name ∈ values.keys, name ∈ t.params.keys.map Identifier.text := by
  rw [Declarations.unexpected, List.filter_eq_nil_iff]
  simp [Bindings.mem_texts_iff]

/-- Nothing is missing and nothing unexpected exactly if the parameters are supplied. -/
theorem supplies_iff_matched : values.Supplies t.params ↔
    t.params.missing values = [] ∧ t.params.unexpected values = [] := by
  rw [Bindings.supplies_iff, missing_eq_nil_iff, unexpected_eq_nil_iff]
  constructor
  · intro h
    exact ⟨fun name hname => (h name.text).2 (List.mem_map_of_mem hname),
      fun name hname => (h name).1 hname⟩
  · rintro ⟨hmissing, hunexpected⟩ name
    constructor
    · exact hunexpected name
    · intro hname
      obtain ⟨id, hid, rfl⟩ := List.mem_map.1 hname
      exact hmissing id hid

/-- Filling in values that are all there never stops early. It gives the selected values and
reports those that do not fit. -/
theorem fill_of_supplies (h : values.Supplies t.params) :
    fill values Table.empty t.params.entries =
      ⟨.ok (Table.ofList (select values t.params.entries)), misfits values t.params.entries⟩ :=
  fill_eq t.params.nodup
    (fun _ hparam => Bindings.mem_keys_of_supplies h (List.mem_map_of_mem hparam)) Table.empty

/-- Binding values that are supplied gives the selected ones under the text of the template. -/
theorem bind_eq_ok (h : values.Supplies t.params) :
    t.bind values = ⟨.ok ⟨t.text, Table.ofList (select values t.params.entries)⟩,
      misfits values t.params.entries ++
        [.bound (Table.ofList (select values t.params.entries)).size]⟩ := by
  obtain ⟨hmissing, hunexpected⟩ := supplies_iff_matched.1 h
  simp [bind, hmissing, hunexpected, fill_of_supplies h]

/-- Binding other values names all that is missing and all that is unexpected, and reports
nothing. -/
theorem bind_eq_error (h : ¬ values.Supplies t.params) : t.bind values =
    ⟨.error (.parameterMismatch (t.params.missing values) (t.params.unexpected values)), []⟩ := by
  have hfound : ¬ ((t.params.missing values).isEmpty && (t.params.unexpected values).isEmpty) := by
    rw [Bool.and_eq_true, List.isEmpty_iff, List.isEmpty_iff]
    exact fun hempty => h (supplies_iff_matched.2 hempty)
  rw [bind, if_neg hfound]

/-- A template takes values that supply its parameters, and keeps them in the order of
declaration. -/
theorem bind_of_supplies (h : values.Supplies t.params) :
    ∃ b, (t.bind values).result = .ok b ∧ b.text = t.text ∧ b.values.keys = t.params.keys ∧
      ∀ name ∈ t.params.keys, b.values.get? name = values.get? name.text := by
  have hpresent : ∀ name ∈ t.params.keys, name.text ∈ values.keys :=
    fun name hname => Bindings.mem_keys_of_supplies h hname
  have hkeys := keys_select hpresent
  have hentries : (Table.ofList (select values t.params.entries)).entries =
      select values t.params.entries := by
    refine Table.entries_ofList ?_
    rw [hkeys]
    exact t.params.nodup
  refine ⟨⟨t.text, Table.ofList (select values t.params.entries)⟩, ?_, rfl, ?_, ?_⟩
  · rw [bind_eq_ok h]
  · rw [Table.keys, hentries, hkeys]
    rfl
  · intro name hname
    obtain ⟨value, hvalue⟩ := Table.mem_keys_iff.1 (hpresent name hname)
    rw [hvalue]
    refine Table.get?_eq_some_iff.2 ?_
    rw [hentries]
    exact mem_select hname hvalue

end Bind

end Template

end GraphQuery
