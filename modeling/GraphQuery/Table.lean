/-!
# Tables

A table assigns values to keys and remembers the order in which keys came in.
Inserting under a key that is present replaces its value and leaves it in its
place; a new key goes to the end. The same operations on bare lists of entries
are in the namespace `Entries`, for syntax trees that hold entries directly.

Main statements: `Table.keys_insert` (what insertion does to the order of keys)
and `Table.get?_insert` (what it does to values).
-/

set_option autoImplicit false

namespace GraphQuery

universe u v

variable {κ : Type u} {α : Type v} [DecidableEq κ]

namespace Entries

/-- Keys in order. -/
def keys (es : List (κ × α)) : List κ := es.map Prod.fst

/-- Replaces the value of a key in its place, or adds the key at the end. -/
def put (key : κ) (value : α) : List (κ × α) → List (κ × α)
  | [] => [(key, value)]
  | (k, a) :: rest =>
      if k = key then (key, value) :: rest else (k, a) :: put key value rest

/-- Entries put in one after the other. -/
def putAll (es new : List (κ × α)) : List (κ × α) :=
  new.foldl (fun acc e => put e.1 e.2 acc) es

/-- Entries with repeated keys resolved: the last value at the first place. -/
def ofList (es : List (κ × α)) : List (κ × α) := putAll [] es

/-- Whether two lists of entries hold the same keys with values that `same`
relates, in any order. -/
def sameBy (same : α → α → Bool) (es others : List (κ × α)) : Bool :=
  es.length == others.length &&
    es.all fun (key, a) => (others.lookup key).any (same a)

theorem keys_put (key : κ) (value : α) (es : List (κ × α)) :
    keys (put key value es) = if key ∈ keys es then keys es else keys es ++ [key] := by
  induction es with
  | nil => simp [put, keys]
  | cons e rest ih =>
      obtain ⟨k, a⟩ := e
      by_cases h : k = key
      · simp [put, keys, h]
      · have h' : ¬ key = k := fun hk => h hk.symm
        by_cases hm : key ∈ keys rest
        · simp_all [put, keys]
        · simp_all [put, keys]

theorem nodup_keys_put (key : κ) (value : α) (es : List (κ × α))
    (h : (keys es).Nodup) : (keys (put key value es)).Nodup := by
  rw [keys_put]
  by_cases hk : key ∈ keys es
  · rwa [if_pos hk]
  · rw [if_neg hk, List.nodup_append]
    refine ⟨h, by simp, ?_⟩
    intro a ha b hb hab
    rw [List.mem_singleton] at hb
    exact hk (hb ▸ hab ▸ ha)

theorem nodup_keys_putAll (es new : List (κ × α)) (h : (keys es).Nodup) :
    (keys (putAll es new)).Nodup := by
  induction new generalizing es with
  | nil => exact h
  | cons e rest ih => exact ih _ (nodup_keys_put e.1 e.2 es h)

theorem lookup_cons (k key : κ) (value : α) (es : List (κ × α)) :
    ((key, value) :: es).lookup k = if k = key then some value else es.lookup k := by
  by_cases h : k = key
  · simp [h]
  · have hb : (k == key) = false := by simp [h]
    rw [List.lookup_cons, hb, if_neg h]

theorem lookup_put (key k : κ) (value : α) (es : List (κ × α)) :
    (put key value es).lookup k = if k = key then some value else es.lookup k := by
  induction es with
  | nil => exact lookup_cons k key value []
  | cons e rest ih =>
      obtain ⟨k', a⟩ := e
      by_cases hk : k' = key
      · subst hk
        simp only [put, if_true, lookup_cons]
        split <;> rfl
      · simp only [put, if_neg hk, lookup_cons, ih]
        by_cases h : k = k'
        · have : ¬ k = key := fun hkey => hk (h ▸ hkey)
          simp [h, hk]
        · simp [h]

end Entries

/-- Keys with values, in order, no key twice. -/
@[ext]
structure Table (κ : Type u) (α : Type v) where
  entries : List (κ × α)
  nodup : (Entries.keys entries).Nodup

namespace Table

/-- No entries. -/
def empty : Table κ α := ⟨[], List.nodup_nil⟩

/-- The keys of a table, in the order of its entries. -/
def keys (t : Table κ α) : List κ := Entries.keys t.entries

/-- Number of entries. -/
def size (t : Table κ α) : Nat := t.entries.length

/-- Value of a key. -/
def get? (t : Table κ α) (key : κ) : Option α := t.entries.lookup key

/-- Whether a key is present. -/
def contains (t : Table κ α) (key : κ) : Bool := key ∈ t.keys

/-- Sets the value of a key. -/
def insert (t : Table κ α) (key : κ) (value : α) : Table κ α :=
  ⟨Entries.put key value t.entries, Entries.nodup_keys_put key value t.entries t.nodup⟩

/-- Removes a key. The other entries keep their order. -/
def erase (t : Table κ α) (key : κ) : Table κ α :=
  ⟨t.entries.filter fun e => e.1 ≠ key, t.nodup.sublist (List.filter_sublist.map Prod.fst)⟩

/-- Inserts entries one after the other. -/
def insertAll (t : Table κ α) (new : List (κ × α)) : Table κ α :=
  ⟨Entries.putAll t.entries new, Entries.nodup_keys_putAll t.entries new t.nodup⟩

/-- The table of a list of entries; of a repeated key the last value counts. -/
def ofList (es : List (κ × α)) : Table κ α := empty.insertAll es

/-- Equality without regard to order. -/
def sameBy (same : α → α → Bool) (t other : Table κ α) : Bool :=
  Entries.sameBy same t.entries other.entries

theorem keys_insert (t : Table κ α) (key : κ) (value : α) :
    (t.insert key value).keys = if key ∈ t.keys then t.keys else t.keys ++ [key] :=
  Entries.keys_put key value t.entries

theorem get?_insert (t : Table κ α) (key k : κ) (value : α) :
    (t.insert key value).get? k = if k = key then some value else t.get? k :=
  Entries.lookup_put key k value t.entries

end Table

end GraphQuery
