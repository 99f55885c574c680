import GraphQuery.Declarations
import GraphQuery.Proofs.Merging.Agreement
import GraphQuery.Proofs.Merging.Supply
import GraphQuery.Proofs.Merging.Tables
import Mathlib.Data.List.Basic

/-!
# Lists of declarations

Parameters are declared one after the other, until a name is no identifier or was declared
before. What has been declared by then is what the list held up to there, so the reason can be
told from the list alone, and a list without such a name is kept as it is.

Main statement: `Declarations.ofList_declarable`.
-/

set_option autoImplicit false

namespace GraphQuery

/-- A text is made an identifier only of the same text. -/
theorem Identifier.of?_eq_some_iff {text : String} {name : Identifier} :
    of? text = some name ↔ name.text = text := by
  constructor
  · intro h
    obtain ⟨_, hsome⟩ := Option.dite_none_right_eq_some.1 h
    cases hsome
    rfl
  · rintro rfl
    exact name.of?_text

/-- The text of an identifier passes the check. -/
theorem Identifier.check_text (name : Identifier) : check name.text = .ok name := by
  rw [check, of?_text]

/-- An illegal text is refused and quoted in the refusal. -/
theorem Identifier.check_of_illegal {text : String} (h : isIdentifier text.toList = false) :
    check text = .error (.invalidIdentifier text) := by
  rw [check, of?, dif_neg]
  rw [h]
  exact Bool.false_ne_true

namespace Declarations

/-- The declarations as a list of names and kinds. -/
def listed (d : Declarations) : List (String × Kind) :=
  d.entries.map fun (name, kind) => (name.text, kind)

/-- Names that can be declared one after the other. -/
structure Declarable (names : List String) : Prop where
  legal : ∀ name ∈ names, isIdentifier name.toList = true
  distinct : names.Nodup

/-- Why a name cannot be declared behind others. -/
inductive Undeclarable (earlier : List String) (name : String) : Error → Prop where
  | illegal (h : isIdentifier name.toList = false) :
      Undeclarable earlier name (.invalidIdentifier name)
  | repeated {id : Identifier} (hid : id.text = name) (h : name ∈ earlier) :
      Undeclarable earlier name (.duplicateParameter id)

/-- The first name of a list that cannot be declared, with the reason. -/
def FirstUndeclarable (entries : List (String × Kind)) (e : Error) : Prop :=
  ∃ before name kind after, entries = before ++ (name, kind) :: after ∧
    Declarable (Entries.keys before) ∧ Undeclarable (Entries.keys before) name e

variable {d : Declarations} {entries : List (String × Kind)} {name : String} {e : Error}

/-! ## Names of declarations -/

/-- The list of declarations names them by their texts. -/
theorem keys_listed (d : Declarations) : Entries.keys d.listed = d.keys.map Identifier.text := by
  simp [listed, Table.keys, Entries.keys]

/-- A name is declared if its text is listed. -/
theorem mem_keys_listed {id : Identifier} : id.text ∈ Entries.keys d.listed ↔ id ∈ d.keys := by
  rw [keys_listed]
  exact List.mem_map_of_injective fun _ _ htext => Identifier.ext_text htext

/-- A new name is listed behind the others. -/
theorem listed_insert {id : Identifier} (h : id ∉ d.keys) (kind : Kind) :
    listed (d.insert id kind) = d.listed ++ [(id.text, kind)] := by
  rw [listed, Table.entries_insert h, List.map_append]
  rfl

/-- Declarations are listed as they could be declared. -/
theorem declarable_listed (d : Declarations) : Declarable (Entries.keys d.listed) := by
  rw [keys_listed]
  constructor
  · intro name hname
    obtain ⟨id, -, rfl⟩ := List.mem_map.1 hname
    exact id.legal
  · exact Identifier.nodup_texts d.nodup

/-- Declarations that are listed alike are the same. -/
theorem eq_of_listed_eq {d' : Declarations} (h : d.listed = d'.listed) : d = d' := by
  have hinjective : Function.Injective fun (entry : Identifier × Kind) =>
      (entry.1.text, entry.2) := by
    rintro ⟨id, kind⟩ ⟨id', kind'⟩ hpair
    obtain ⟨htext, hkind⟩ := Prod.mk.inj hpair
    exact Prod.ext (Identifier.ext_text htext) hkind
  exact Table.ext (List.map_injective_iff.2 hinjective h)

/-- Looking a name up finds the kind with which it is listed. -/
theorem kindOf?_eq_some_iff {kind : Kind} :
    d.kindOf? name = some kind ↔ (name, kind) ∈ d.listed := by
  rw [kindOf?, Option.bind_eq_some_iff]
  constructor
  · rintro ⟨id, hid, hkind⟩
    obtain rfl := Identifier.of?_eq_some_iff.1 hid
    exact List.mem_map_of_mem (Table.get?_eq_some_iff.1 hkind)
  · intro h
    obtain ⟨⟨id, found⟩, hmem, hpair⟩ := List.mem_map.1 h
    cases hpair
    exact ⟨id, id.of?_text, Table.get?_eq_some_iff.2 hmem⟩

/-! ## One name -/

/-- A name is a new identifier, or there is a reason why it cannot be declared. -/
theorem fresh_or_undeclarable (d : Declarations) (name : String) :
    (∃ id : Identifier, id.text = name ∧ id ∉ d.keys) ∨
      ∃ e, Undeclarable (Entries.keys d.listed) name e := by
  cases hlegal : isIdentifier name.toList with
  | false => exact .inr ⟨_, .illegal hlegal⟩
  | true =>
      by_cases hknown : name ∈ Entries.keys d.listed
      · have htext : Identifier.text ⟨name, hlegal⟩ = name := rfl
        exact .inr ⟨_, .repeated htext hknown⟩
      · exact .inl ⟨⟨name, hlegal⟩, rfl, fun hmem => hknown (mem_keys_listed.2 hmem)⟩

/-- A new legal name is declared, and the scan goes on. -/
theorem declareAll_cons_of_fresh {id : Identifier} (h : id ∉ d.keys) (kind : Kind)
    (rest : List (String × Kind)) :
    declareAll d ((id.text, kind) :: rest) = declareAll (d.insert id kind) rest := by
  rw [declareAll, Identifier.check_text]
  exact if_neg fun hcontains => h (Table.contains_iff.1 hcontains)

/-- A name that cannot be declared ends the scan with its own error. -/
theorem declareAll_cons_of_undeclarable (h : Undeclarable (Entries.keys d.listed) name e)
    (kind : Kind) (rest : List (String × Kind)) :
    declareAll d ((name, kind) :: rest) = .error e := by
  cases h with
  | illegal hillegal => rw [declareAll, Identifier.check_of_illegal hillegal]
  | repeated hid hmem =>
      subst hid
      rw [declareAll, Identifier.check_text]
      exact if_pos (Table.contains_iff.2 (mem_keys_listed.1 hmem))

/-! ## One name after the other -/

/-- Declaring a list is declaring its parts in order. -/
theorem declareAll_append (d : Declarations) (xs ys : List (String × Kind)) :
    declareAll d (xs ++ ys) = (declareAll d xs).bind fun reached => declareAll reached ys := by
  induction xs generalizing d with
  | nil => rfl
  | cons entry rest ih =>
      obtain ⟨name, kind⟩ := entry
      rcases fresh_or_undeclarable d name with ⟨id, rfl, hfresh⟩ | ⟨e, he⟩
      · rw [List.cons_append, declareAll_cons_of_fresh hfresh, declareAll_cons_of_fresh hfresh, ih]
      · rw [List.cons_append, declareAll_cons_of_undeclarable he,
          declareAll_cons_of_undeclarable he]
        rfl

/-- All names are declared, or the first that cannot be ends it; up to there the declarations
are what the list holds. -/
theorem declareAll_cases (d : Declarations) (entries : List (String × Kind)) :
    (∃ built, declareAll d entries = .ok built ∧ built.listed = d.listed ++ entries) ∨
      ∃ before name kind after, ∃ (reached : Declarations) (e : Error),
        entries = before ++ (name, kind) :: after ∧ reached.listed = d.listed ++ before ∧
          Undeclarable (Entries.keys reached.listed) name e ∧
            declareAll d entries = .error e := by
  induction entries generalizing d with
  | nil => exact .inl ⟨d, rfl, (List.append_nil _).symm⟩
  | cons entry rest ih =>
      obtain ⟨name, kind⟩ := entry
      rcases fresh_or_undeclarable d name with ⟨id, rfl, hfresh⟩ | ⟨e, he⟩
      · -- the entry is listed last now, where the rest goes on
        have hlisted (more : List (String × Kind)) :
            listed (d.insert id kind) ++ more = d.listed ++ (id.text, kind) :: more := by
          rw [listed_insert hfresh, List.append_assoc, List.singleton_append]
        rw [declareAll_cons_of_fresh hfresh]
        rcases ih (d.insert id kind) with
          ⟨built, hbuilt, hentries⟩ | ⟨before, name, other, after, reached, e, rfl, hreached, he⟩
        · exact .inl ⟨built, hbuilt, hentries.trans (hlisted rest)⟩
        · exact .inr ⟨(id.text, kind) :: before, name, other, after, reached, e, rfl,
            hreached.trans (hlisted before), he⟩
      · exact .inr ⟨[], name, kind, rest, d, e, rfl, (List.append_nil _).symm, he,
          declareAll_cons_of_undeclarable he kind rest⟩

/-! ## Whole lists -/

/-- No name within names that can be declared is at fault. -/
theorem Declarable.not_undeclarable {before after : List String}
    (h : Declarable (before ++ name :: after)) : ¬Undeclarable before name e := by
  intro he
  cases he with
  | illegal hillegal =>
      have hlegal := h.legal name (by simp)
      rw [hillegal] at hlegal
      cases hlegal
  | repeated _ hmem =>
      obtain ⟨-, -, hdisjoint⟩ := List.nodup_append.1 h.distinct
      exact hdisjoint name hmem name List.mem_cons_self rfl

/-- A list is kept as it is, or refused for the first name that cannot be declared. -/
theorem ofList_cases (entries : List (String × Kind)) :
    (∃ d, ofList entries = .ok d ∧ d.listed = entries) ∨
      ∃ e, FirstUndeclarable entries e ∧ ofList entries = .error e := by
  rcases declareAll_cases Table.empty entries with
    hbuilt | ⟨before, name, kind, after, reached, e, rfl, hreached, he, herror⟩
  · exact .inl hbuilt
  · -- nothing was declared at first, so `reached` lists what stands before
    have hbefore : reached.listed = before := hreached
    have hdeclarable := reached.declarable_listed
    rw [hbefore] at he hdeclarable
    exact .inr ⟨e, ⟨before, name, kind, after, rfl, hdeclarable, he⟩, herror⟩

theorem FirstUndeclarable.not_declarable (h : FirstUndeclarable entries e) :
    ¬Declarable (Entries.keys entries) := by
  obtain ⟨before, name, kind, after, rfl, -, he⟩ := h
  intro hdeclarable
  rw [Entries.keys, List.map_append, List.map_cons] at hdeclarable
  exact hdeclarable.not_undeclarable he

/-- Distinct legal names are declared with their kinds, in their order. -/
theorem ofList_of_declarable (h : Declarable (Entries.keys entries)) :
    ∃ d, ofList entries = .ok d ∧ d.listed = entries := by
  rcases ofList_cases entries with hok | ⟨e, he, -⟩
  · exact hok
  · exact absurd h he.not_declarable

/-- The first name at fault decides the error. -/
theorem ofList_of_firstUndeclarable (h : FirstUndeclarable entries e) :
    ofList entries = .error e := by
  obtain ⟨before, name, kind, after, rfl, hbefore, he⟩ := h
  obtain ⟨reached, hreached, rfl⟩ := ofList_of_declarable hbefore
  rw [ofList] at hreached
  rw [ofList, declareAll_append, hreached]
  exact declareAll_cons_of_undeclarable he kind after

/-- A list is accepted only as the declarations that list it again. -/
theorem ofList_ok_iff : ofList entries = .ok d ↔ d.listed = entries := by
  constructor
  · intro h
    rcases ofList_cases entries with ⟨built, hbuilt, hlisted⟩ | ⟨e, -, he⟩
    · rw [h] at hbuilt
      cases hbuilt
      exact hlisted
    · rw [h] at he
      cases he
  · rintro rfl
    obtain ⟨built, hbuilt, hlisted⟩ := ofList_of_declarable d.declarable_listed
    rw [hbuilt, eq_of_listed_eq hlisted]

/-- The error is that of the first name at fault. -/
theorem ofList_error_iff : ofList entries = .error e ↔ FirstUndeclarable entries e := by
  apply eq_error_iff_of_total
  · intro e he
    exact ofList_of_firstUndeclarable he
  · rcases ofList_cases entries with ⟨d, hd, -⟩ | ⟨e, he, -⟩
    · exact .inl ⟨d, hd⟩
    · exact .inr ⟨e, he⟩

/-- A list of declarations is accepted if its names are legal and distinct. -/
theorem exists_ofList_iff : (∃ d, ofList entries = .ok d) ↔ Declarable (Entries.keys entries) := by
  constructor
  · rintro ⟨d, hd⟩
    obtain rfl := ofList_ok_iff.1 hd
    exact d.declarable_listed
  · intro h
    obtain ⟨d, hd, -⟩ := ofList_of_declarable h
    exact ⟨d, hd⟩

/-- A list of parameters is taken exactly if its names are identifiers and none comes twice.
The declarations are then the entries of the list in order, and each name is found at the kind
that stands with it. Otherwise the error is that of the first name that is no identifier or
comes again. -/
theorem ofList_declarable (entries : List (String × Kind)) :
    ((∃ d, ofList entries = .ok d) ↔ Declarable (Entries.keys entries)) ∧
    (∀ d, ofList entries = .ok d ↔ d.listed = entries) ∧
    (∀ d, ofList entries = .ok d →
      ∀ name kind, d.kindOf? name = some kind ↔ (name, kind) ∈ entries) ∧
    (∀ e, ofList entries = .error e ↔
      ∃ before name kind after, entries = before ++ (name, kind) :: after ∧
        Declarable (Entries.keys before) ∧ Undeclarable (Entries.keys before) name e) := by
  refine ⟨exists_ofList_iff, fun d => ofList_ok_iff, ?_, fun e => ofList_error_iff⟩
  intro d hd name kind
  rw [kindOf?_eq_some_iff, ofList_ok_iff.1 hd]

namespace Sample

def age : Identifier := ⟨"age", by decide⟩

end Sample

/-- The fault that comes first counts, be it a name that comes again or one that is no
identifier. A list without a fault is kept in its order. -/
theorem ofList_declarable_faulty :
    ofList [("name", .string), ("age", .integer), ("age", .any), ("last name", .string)] =
      .error (.duplicateParameter Sample.age) ∧
    ofList [("name", .string), ("last name", .string), ("name", .string), ("last name", .any)] =
      .error (.invalidIdentifier "last name") ∧
    ∃ d, ofList [("name", .string), ("age", .integer)] = .ok d ∧
      d.listed = [("name", .string), ("age", .integer)] ∧ d.kindOf? "age" = some .integer := by
  refine ⟨?_, ?_, ?_⟩
  · obtain ⟨-, -, -, herror⟩ := ofList_declarable
      [("name", .string), ("age", .integer), ("age", .any), ("last name", .string)]
    rw [herror]
    exact ⟨[("name", .string), ("age", .integer)], "age", .any, [("last name", .string)], rfl,
      ⟨by decide, by decide⟩, .repeated rfl (by decide)⟩
  · obtain ⟨-, -, -, herror⟩ := ofList_declarable
      [("name", .string), ("last name", .string), ("name", .string), ("last name", .any)]
    rw [herror]
    exact ⟨[("name", .string)], "last name", .string, [("name", .string), ("last name", .any)], rfl,
      ⟨by decide, by decide⟩, .illegal (by decide)⟩
  · obtain ⟨hok, hlisted, hkinds, -⟩ := ofList_declarable [("name", .string), ("age", .integer)]
    obtain ⟨d, hd⟩ := hok.2 ⟨by decide, by decide⟩
    exact ⟨d, hd, (hlisted d).1 hd, (hkinds d hd "age" .integer).2 (by decide)⟩

end Declarations

end GraphQuery
