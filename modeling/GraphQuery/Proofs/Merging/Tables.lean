import GraphQuery.Table

/-!
# Keys and values of tables

No key of a table occurs twice, so looking a key up and finding an entry are the
same. Entries under new keys go to the end, one after the other, and nothing is
replaced.

Main statements: `Table.get?_eq_some_iff` and `Table.entries_insertAll`.
-/

set_option autoImplicit false

namespace GraphQuery

universe u v

variable {κ : Type u} {α : Type v} [DecidableEq κ]

namespace Entries

/-- What is looked up is an entry. -/
theorem mem_of_lookup {es : List (κ × α)} {key : κ} {value : α}
    (h : es.lookup key = some value) : (key, value) ∈ es := by
  induction es with
  | nil => cases h
  | cons e rest ih =>
      obtain ⟨k, a⟩ := e
      rw [lookup_cons] at h
      split at h
      · next hk =>
          cases h
          rw [hk]
          exact List.mem_cons_self
      · exact List.mem_cons_of_mem _ (ih h)

/-- Without repeated keys every entry is what its key looks up. -/
theorem lookup_of_mem {es : List (κ × α)} (hnodup : (keys es).Nodup) {key : κ} {value : α}
    (h : (key, value) ∈ es) : es.lookup key = some value := by
  induction es with
  | nil => cases h
  | cons e rest ih =>
      obtain ⟨k, a⟩ := e
      have hkeys : k ∉ keys rest ∧ (keys rest).Nodup := List.nodup_cons.1 hnodup
      rw [lookup_cons]
      rcases List.mem_cons.1 h with heq | hmem
      · cases heq
        rw [if_pos rfl]
      · -- the key of the first entry does not come again, so the lookup goes past it
        have hne : key ≠ k := fun hk => hkeys.1 (hk ▸ List.mem_map_of_mem hmem)
        rw [if_neg hne]
        exact ih hkeys.2 hmem

/-- A new key is put at the end. -/
theorem put_of_not_mem {es : List (κ × α)} {key : κ} (h : key ∉ keys es) (value : α) :
    put key value es = es ++ [(key, value)] := by
  induction es with
  | nil => rfl
  | cons e rest ih =>
      obtain ⟨k, a⟩ := e
      have hk : k ≠ key := fun hk => h (hk ▸ List.mem_cons_self)
      have hrest : key ∉ keys rest := fun hmem => h (List.mem_cons_of_mem k hmem)
      rw [put, if_neg hk, ih hrest]
      rfl

/-- Entries under keys that are new and distinct are appended. -/
theorem putAll_of_nodup {es new : List (κ × α)} (h : (keys (es ++ new)).Nodup) :
    putAll es new = es ++ new := by
  induction new generalizing es with
  | nil => exact (List.append_nil es).symm
  | cons e rest ih =>
      have hsplit : es ++ e :: rest = (es ++ [e]) ++ rest := by simp
      have hnew : e.1 ∉ keys es := by
        intro hmem
        rw [keys, List.map_append, List.nodup_append] at h
        exact h.2.2 e.1 hmem e.1 List.mem_cons_self rfl
      show putAll (put e.1 e.2 es) rest = _
      rw [hsplit] at h ⊢
      rw [put_of_not_mem hnew]
      exact ih h

end Entries

namespace Table

theorem length_keys {κ : Type u} {α : Type v} (t : Table κ α) : t.keys.length = t.size :=
  List.length_map _

/-- A table has a value under a key if that is an entry of it. -/
theorem get?_eq_some_iff {t : Table κ α} {key : κ} {value : α} :
    t.get? key = some value ↔ (key, value) ∈ t.entries :=
  ⟨Entries.mem_of_lookup, Entries.lookup_of_mem t.nodup⟩

/-- The keys of a table are those under which it has a value. -/
theorem mem_keys_iff {t : Table κ α} {key : κ} :
    key ∈ t.keys ↔ ∃ value, t.get? key = some value := by
  constructor
  · intro h
    obtain ⟨⟨k, value⟩, hmem, rfl⟩ := List.mem_map.1 h
    exact ⟨value, get?_eq_some_iff.2 hmem⟩
  · rintro ⟨value, h⟩
    exact List.mem_map_of_mem (get?_eq_some_iff.1 h)

theorem get?_eq_none_iff {t : Table κ α} {key : κ} : t.get? key = none ↔ key ∉ t.keys := by
  rw [mem_keys_iff]
  cases t.get? key with
  | none => simp
  | some value => simp

theorem contains_iff {t : Table κ α} {key : κ} : t.contains key = true ↔ key ∈ t.keys :=
  decide_eq_true_iff

/-- A new key is inserted behind all others. -/
theorem entries_insert {t : Table κ α} {key : κ} (h : key ∉ t.keys) (value : α) :
    (t.insert key value).entries = t.entries ++ [(key, value)] :=
  Entries.put_of_not_mem h value

/-- New entries are inserted in their order, if no key comes twice. -/
theorem entries_insertAll {t : Table κ α} {new : List (κ × α)}
    (h : (Entries.keys (t.entries ++ new)).Nodup) :
    (t.insertAll new).entries = t.entries ++ new :=
  Entries.putAll_of_nodup h

/-- A table of entries without repeated keys has exactly these. -/
theorem entries_ofList {es : List (κ × α)} (h : (Entries.keys es).Nodup) :
    (ofList es).entries = es :=
  entries_insertAll (t := empty) h

end Table

end GraphQuery
