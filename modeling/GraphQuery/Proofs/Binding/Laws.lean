import GraphQuery.Bindings
import GraphQuery.Proofs.Merging.Tables
import GraphQuery.Proofs.Rendering.Fragment
import Mathlib.Data.List.Nodup

/-!
# Laws of bindings

A table is known by the order of its keys and by the value of each key. Putting entries in
one after the other has a law for either: a key keeps the place where it came in first, and it
has the value that came in last. The laws of merging follow from these two.

Main statements: `Table.keys_insertAll`, `Table.get?_insertAll` and `Bindings.merge_assoc`.
-/

set_option autoImplicit false

namespace GraphQuery

/-- There is nothing to erase in a list without repetitions. -/
theorem eraseDups_of_nodup {α : Type} [DecidableEq α] {as : List α} (h : as.Nodup) :
    as.eraseDups = as := by
  induction as using List.reverseRecOn with
  | nil => rfl
  | append_singleton as a ih =>
      obtain ⟨has, -, hne⟩ := List.nodup_append.1 h
      have ha : a ∉ as := by
        intro hmem
        exact hne a hmem a List.mem_cons_self rfl
      rw [eraseDups_concat, if_neg ha, ih has]

/-- Repetitions may be dropped on the left before something is appended. -/
theorem eraseDups_append_left {α : Type} [DecidableEq α] (as bs : List α) :
    (as.eraseDups ++ bs).eraseDups = (as ++ bs).eraseDups := by
  induction bs using List.reverseRecOn with
  | nil => rw [List.append_nil, List.append_nil, eraseDups_of_nodup (nodup_eraseDups as)]
  | append_singleton bs b ih =>
      rw [← List.append_assoc, ← List.append_assoc, eraseDups_concat, eraseDups_concat, ih]
      simp only [List.mem_append, List.mem_eraseDups]

/-- Repetitions may be dropped on the right before something is put in front. -/
theorem eraseDups_append_right {α : Type} [DecidableEq α] (as bs : List α) :
    (as ++ bs.eraseDups).eraseDups = (as ++ bs).eraseDups := by
  induction bs using List.reverseRecOn with
  | nil => rfl
  | append_singleton bs b ih =>
      rw [eraseDups_concat, ← List.append_assoc, eraseDups_concat]
      by_cases hb : b ∈ bs
      · simp [hb, ih]
      · rw [if_neg hb, ← List.append_assoc, eraseDups_concat, ih]
        simp only [List.mem_append, List.mem_eraseDups]

section Tables

variable {κ α : Type} [DecidableEq κ]

namespace Entries

/-- The last of several new entries is put in last. -/
theorem putAll_concat (es new : List (κ × α)) (e : κ × α) :
    putAll es (new ++ [e]) = put e.1 e.2 (putAll es new) := by
  simp [putAll]

/-- A key stands where it came in first. -/
theorem keys_putAll {es : List (κ × α)} (h : (keys es).Nodup) (new : List (κ × α)) :
    keys (putAll es new) = (keys es ++ keys new).eraseDups := by
  induction new using List.reverseRecOn with
  | nil =>
      show keys es = (keys es ++ []).eraseDups
      rw [List.append_nil, eraseDups_of_nodup h]
  | append_singleton new e ih =>
      have hkeys : keys (new ++ [e]) = keys new ++ [e.1] := List.map_append
      rw [putAll_concat, keys_put, ih, hkeys, ← List.append_assoc, eraseDups_concat]
      simp only [List.mem_eraseDups]

/-- A key has the value that came in last. -/
theorem lookup_putAll (es new : List (κ × α)) (key : κ) :
    (putAll es new).lookup key = (new.reverse.lookup key).or (es.lookup key) := by
  induction new using List.reverseRecOn with
  | nil => rfl
  | append_singleton new e ih =>
      obtain ⟨k, a⟩ := e
      rw [putAll_concat, lookup_put, List.reverse_append, List.reverse_singleton,
        List.singleton_append, lookup_cons, ih]
      split
      · rfl
      · rfl

theorem lookup_of_not_mem {es : List (κ × α)} {key : κ} (h : key ∉ keys es) :
    es.lookup key = none := by
  rw [Option.eq_none_iff_forall_ne_some]
  intro value hvalue
  exact h (List.mem_map_of_mem (mem_of_lookup hvalue))

/-- Without repeated keys it does not matter from which end entries are searched. -/
theorem lookup_reverse {es : List (κ × α)} (h : (keys es).Nodup) (key : κ) :
    es.reverse.lookup key = es.lookup key := by
  have hreverse : (keys es.reverse).Nodup := by
    rw [keys, List.map_reverse]
    exact List.nodup_reverse.2 h
  refine Option.ext fun value => ?_
  constructor
  · intro hvalue
    exact lookup_of_mem h (List.mem_reverse.1 (mem_of_lookup hvalue))
  · intro hvalue
    exact lookup_of_mem hreverse (List.mem_reverse.2 (mem_of_lookup hvalue))

/-- Lists with the same keys in the same order are equal if they look up the same values. -/
theorem ext_lookup {es fs : List (κ × α)} (hnodup : (keys es).Nodup) (hkeys : keys es = keys fs)
    (h : ∀ key, es.lookup key = fs.lookup key) : es = fs := by
  induction es generalizing fs with
  | nil => exact (List.map_eq_nil_iff.1 hkeys.symm).symm
  | cons e rest ih =>
      cases fs with
      | nil => cases hkeys
      | cons f others =>
          obtain ⟨k, a⟩ := e
          obtain ⟨k', b⟩ := f
          obtain ⟨rfl, hrest⟩ : k = k' ∧ keys rest = keys others := List.cons.inj hkeys
          obtain ⟨hk, hnodup⟩ : k ∉ keys rest ∧ (keys rest).Nodup := List.nodup_cons.1 hnodup
          obtain rfl : a = b := by
            have hfirst := h k
            rw [lookup_cons, lookup_cons, if_pos rfl, if_pos rfl] at hfirst
            exact Option.some.inj hfirst
          refine congrArg ((k, a) :: ·) (ih hnodup hrest fun key => ?_)
          by_cases hkey : key = k
          · -- the first key does not come again on either side
            rw [hkey, lookup_of_not_mem hk, lookup_of_not_mem (hrest ▸ hk)]
          · have hlater := h key
            rw [lookup_cons, lookup_cons, if_neg hkey, if_neg hkey] at hlater
            exact hlater

end Entries

namespace Table

/-- Tables with the same keys in the same order and the same values are equal. -/
theorem ext_get? {t u : Table κ α} (hkeys : t.keys = u.keys) (h : ∀ key, t.get? key = u.get? key) :
    t = u :=
  Table.ext (Entries.ext_lookup t.nodup hkeys h)

/-- Inserted keys go behind those that are present, each where it comes first. -/
theorem keys_insertAll (t : Table κ α) (es : List (κ × α)) :
    (t.insertAll es).keys = (t.keys ++ Entries.keys es).eraseDups :=
  Entries.keys_putAll t.nodup es

/-- Of the values inserted under a key the last one counts. -/
theorem get?_insertAll (t : Table κ α) (es : List (κ × α)) (key : κ) :
    (t.insertAll es).get? key = (es.reverse.lookup key).or (t.get? key) :=
  Entries.lookup_putAll t.entries es key

/-- A table of entries has their keys, each where it comes first. -/
theorem keys_ofList (es : List (κ × α)) : (ofList es).keys = (Entries.keys es).eraseDups :=
  keys_insertAll empty es

/-- A table of entries has the last value of each key. -/
theorem get?_ofList (es : List (κ × α)) (key : κ) :
    (ofList es).get? key = es.reverse.lookup key := by
  rw [ofList, get?_insertAll]
  exact Option.or_none

/-- Entries are inserted one by one. -/
theorem insertAll_eq_foldl (t : Table κ α) (es : List (κ × α)) :
    t.insertAll es = es.foldl (fun u e => u.insert e.1 e.2) t := by
  induction es generalizing t with
  | nil => rfl
  | cons e rest ih => exact ih (t.insert e.1 e.2)

end Table

end Tables

namespace Bindings

/-- The names of the bindings merged in go behind the names that are there already. -/
theorem keys_merge (a b : Bindings) : (a.merge b).keys = (a.keys ++ b.keys).eraseDups :=
  Table.keys_insertAll a b.entries

/-- The bindings merged in win. -/
theorem get?_merge (a b : Bindings) (name : String) :
    (a.merge b).get? name = (b.get? name).or (a.get? name) := by
  rw [merge, Table.get?_insertAll, Entries.lookup_reverse b.nodup]
  rfl

/-- Merging is associative, in values and in the order of the keys. -/
theorem merge_assoc (a b c : Bindings) : (a.merge b).merge c = a.merge (b.merge c) := by
  apply Table.ext_get?
  · rw [keys_merge, keys_merge, keys_merge, keys_merge, eraseDups_append_left,
      eraseDups_append_right, List.append_assoc]
  · intro name
    rw [get?_merge, get?_merge, get?_merge, get?_merge, Option.or_assoc]

/-- Empty bindings are a left unit of merging. -/
theorem empty_merge (a : Bindings) : merge Table.empty a = a := by
  apply Table.ext_get?
  · rw [keys_merge]
    exact eraseDups_of_nodup a.nodup
  · intro name
    rw [get?_merge]
    exact Option.or_none

/-- Empty bindings are a right unit of merging. -/
theorem merge_empty (a : Bindings) : a.merge Table.empty = a := rfl

end Bindings

end GraphQuery
