import GraphQuery.Proofs.Binding.Filling
import GraphQuery.Proofs.Merging.Claims

/-!
# Merged and renamed bindings

Bindings without common names merge by putting their entries one after the other
(`Bindings.entries_foldl_merge`), and a renaming that keeps names apart renames entry by
entry (`Bindings.entries_renamed`).
-/

set_option autoImplicit false

namespace GraphQuery

namespace Bindings

/-- Bindings that share no name are put one after the other. -/
theorem entries_foldl_merge {order : List Bindings} {b : Bindings}
    (h : (Entries.keys (b.entries ++ order.flatMap Table.entries)).Nodup) :
    (order.foldl merge b).entries = b.entries ++ order.flatMap Table.entries := by
  induction order generalizing b with
  | nil => exact (List.append_nil _).symm
  | cons first rest ih =>
      rw [List.flatMap_cons, ← List.append_assoc] at h ⊢
      have hfirst : (Entries.keys (b.entries ++ first.entries)).Nodup := by
        refine List.Nodup.sublist ?_ h
        exact List.Sublist.map _ (List.sublist_append_left _ _)
      have hentries : (b.merge first).entries = b.entries ++ first.entries :=
        Table.entries_insertAll hfirst
      rw [← hentries] at h ⊢
      exact ih h

/-- Bindings whose keys stay distinct are renamed entry by entry. -/
theorem entries_renamed {b : Bindings} {r : Renaming} (h : (b.keys.map r.applyText).Nodup) :
    (b.renamed r).entries = b.entries.map fun (name, value) => (r.applyText name, value) := by
  refine Table.entries_ofList ?_
  rw [Entries.keys, List.map_map]
  rw [Table.keys, Entries.keys, List.map_map] at h
  exact h

end Bindings

end GraphQuery
