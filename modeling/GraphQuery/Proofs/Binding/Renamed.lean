import GraphQuery.Proofs.Binding.Laws
import GraphQuery.Proofs.Merging.Binding

/-!
# Renamed bindings

A renaming that keeps its names apart, and renames no target again, loses a value only where a
caller has bound a target too: the name that is renamed to it falls together with it. The order
of the names is kept in any case.

Main statements: `Bindings.carried_renamed` tells what becomes of every value,
`Bindings.renamed_renamed` and `Bindings.renamed_merge` are laws of renaming.
-/

set_option autoImplicit false

namespace GraphQuery

/-- Renamings that keep the names apart that they rename, and rename no target again. -/
structure Renaming.Separates (r : Renaming) : Prop where
  injective : ∀ a ∈ r.keys, ∀ b ∈ r.keys, r.applyText a = r.applyText b → a = b
  fresh : ∀ a ∈ r.keys, r.applyText a ∉ r.keys

namespace Renaming

variable {r : Renaming} {name : String}

/-- A name that is not renamed stays as it is. -/
theorem applyText_of_not_mem (h : name ∉ r.keys) : r.applyText name = name := by
  rw [applyText, Table.get?_eq_none_iff.2 h]
  rfl

/-- A target is renamed no further. -/
theorem Separates.applyText_applyText (h : r.Separates) (name : String) :
    r.applyText (r.applyText name) = r.applyText name := by
  by_cases hname : name ∈ r.keys
  · exact applyText_of_not_mem (h.fresh name hname)
  · rw [applyText_of_not_mem hname, applyText_of_not_mem hname]

end Renaming

namespace Bindings

/-- Names that are renamed to the name of another value. -/
def clashes (b : Bindings) (r : Renaming) : List String :=
  b.keys.filter fun name => name ∈ r.keys ∧ r.applyText name ∈ b.keys

variable {b : Bindings} {r : Renaming}

/-- A key clashes if it is renamed to a key that is present. -/
theorem mem_clashes_iff {name : String} : name ∈ b.clashes r ↔
    name ∈ b.keys ∧ name ∈ r.keys ∧ r.applyText name ∈ b.keys := by
  rw [clashes, List.mem_filter, decide_eq_true_iff]

/-- Renamed keys stand where they stood, the later of two equal ones left out. -/
theorem keys_renamed (b : Bindings) (r : Renaming) :
    (b.renamed r).keys = (b.keys.map r.applyText).eraseDups := by
  rw [renamed, Table.keys_ofList]
  apply congrArg List.eraseDups
  rw [Entries.keys, Table.keys, Entries.keys, List.map_map, List.map_map]
  rfl

/-- Of the values under names that fall together the last one counts. -/
theorem get?_renamed_of_last {before after : List (String × Value)} {name : String} {value : Value}
    (hentries : b.entries = before ++ (name, value) :: after)
    (hafter : ∀ e ∈ after, r.applyText e.1 ≠ r.applyText name) :
    (b.renamed r).get? (r.applyText name) = some value := by
  rw [renamed, Table.get?_ofList, hentries, List.map_append, List.map_cons, List.reverse_append,
    List.reverse_cons, List.append_assoc]
  rw [List.lookup_append, Entries.lookup_of_not_mem, Option.none_or, List.singleton_append,
    Entries.lookup_cons, if_pos rfl]
  intro hmem
  rw [Entries.keys, List.map_reverse, List.mem_reverse, List.map_map] at hmem
  obtain ⟨e, he, htext⟩ := List.mem_map.1 hmem
  exact hafter e he htext

/-- A name that falls together with no other one keeps its value. -/
theorem get?_renamed {name : String}
    (h : ∀ other ∈ b.keys, r.applyText other = r.applyText name → other = name) :
    (b.renamed r).get? (r.applyText name) = b.get? name := by
  by_cases hname : name ∈ b.keys
  · obtain ⟨value, hvalue⟩ := Table.mem_keys_iff.1 hname
    obtain ⟨before, after, hentries⟩ := List.append_of_mem (Table.get?_eq_some_iff.1 hvalue)
    rw [hvalue]
    refine get?_renamed_of_last hentries fun e he htext => ?_
    have hkey : e.1 ∈ b.keys := by
      rw [Table.keys, hentries]
      exact List.mem_map_of_mem (List.mem_append_right _ (List.mem_cons_of_mem _ he))
    have hnodup := b.nodup
    rw [hentries, Entries.keys, List.map_append, List.map_cons, List.nodup_append] at hnodup
    refine (List.nodup_cons.1 hnodup.2.1).1 ?_
    rw [← h e.1 hkey htext]
    exact List.mem_map.2 ⟨e, he, rfl⟩
  · rw [Table.get?_eq_none_iff.2 hname, Table.get?_eq_none_iff, keys_renamed, List.mem_eraseDups]
    intro hmem
    obtain ⟨other, hother, htext⟩ := List.mem_map.1 hmem
    exact hname (h other hother htext ▸ hother)

/-- Renaming commutes with merging if it keeps all keys apart. -/
theorem renamed_merge {a b : Bindings} {r : Renaming}
    (h : ∀ x ∈ a.keys ++ b.keys, ∀ y ∈ a.keys ++ b.keys, r.applyText x = r.applyText y → x = y) :
    (a.merge b).renamed r = (a.renamed r).merge (b.renamed r) := by
  apply Table.ext_get?
  · -- the order of the names comes out right even if some of them fall together
    rw [keys_renamed, keys_merge, keys_merge, keys_renamed, keys_renamed, eraseDups_map_eraseDups,
      eraseDups_append_left, eraseDups_append_right, List.map_append]
  · intro target
    by_cases htarget : ∃ name ∈ a.keys ++ b.keys, r.applyText name = target
    · obtain ⟨name, hname, rfl⟩ := htarget
      have hboth : ∀ other ∈ a.keys ++ b.keys, r.applyText other = r.applyText name →
          other = name := fun other hother htext => h other hother name hname htext
      have ha : ∀ other ∈ a.keys, r.applyText other = r.applyText name → other = name :=
        fun other hother => hboth other (List.mem_append_left _ hother)
      have hb : ∀ other ∈ b.keys, r.applyText other = r.applyText name → other = name :=
        fun other hother => hboth other (List.mem_append_right _ hother)
      have hmerged : ∀ other ∈ (a.merge b).keys, r.applyText other = r.applyText name →
          other = name := by
        intro other hother
        rw [keys_merge, List.mem_eraseDups] at hother
        exact hboth other hother
      rw [get?_merge, get?_renamed hmerged, get?_renamed ha, get?_renamed hb, get?_merge]
    · have hnone : ∀ c : Bindings, (∀ name ∈ c.keys, name ∈ a.keys ++ b.keys) →
          (c.renamed r).get? target = none := by
        intro c hc
        rw [Table.get?_eq_none_iff, keys_renamed, List.mem_eraseDups]
        intro hmem
        obtain ⟨name, hname, htext⟩ := List.mem_map.1 hmem
        exact htarget ⟨name, hc name hname, htext⟩
      rw [get?_merge, hnone a fun _ => List.mem_append_left _,
        hnone b fun _ => List.mem_append_right _, hnone (a.merge b) fun name hname => by
          rwa [keys_merge, List.mem_eraseDups] at hname]
      rfl

/-- Bindings that are renamed already are left alone. -/
theorem renamed_renamed (h : r.Separates) (b : Bindings) :
    (b.renamed r).renamed r = b.renamed r := by
  have hfixed : ∀ e ∈ (b.renamed r).entries, (r.applyText e.1, e.2) = e := by
    intro e he
    have hkey : e.1 ∈ (b.renamed r).keys := List.mem_map_of_mem he
    rw [keys_renamed, List.mem_eraseDups] at hkey
    obtain ⟨name, -, hname⟩ := List.mem_map.1 hkey
    rw [← hname, h.applyText_applyText, hname]
  apply Table.ext
  have hentries : (b.renamed r).entries.map (fun e => (r.applyText e.1, e.2)) =
      (b.renamed r).entries := by
    rw [List.map_congr_left hfixed, List.map_id']
  show (Table.ofList ((b.renamed r).entries.map fun e => (r.applyText e.1, e.2))).entries = _
  rw [hentries]
  exact Table.entries_ofList (b.renamed r).nodup

/-- The names that do not clash are kept apart, and every name falls together with one of
them. -/
theorem perm_keys_renamed (h : r.Separates) (b : Bindings) : (b.renamed r).keys.Perm
    ((b.keys.filter fun name => name ∉ b.clashes r).map r.applyText) := by
  have hsurvivors : ((b.keys.filter fun name => name ∉ b.clashes r).map r.applyText).Nodup := by
    refine List.Nodup.map_on ?_ (List.Nodup.filter _ b.nodup)
    intro x hx y hy hxy
    simp only [List.mem_filter, decide_eq_true_eq, mem_clashes_iff] at hx hy
    obtain ⟨hx, hxfree⟩ := hx
    obtain ⟨hy, hyfree⟩ := hy
    by_cases hxr : x ∈ r.keys
    · by_cases hyr : y ∈ r.keys
      · exact h.injective x hxr y hyr hxy
      · -- `y` stays, so `x` is renamed to the name of another value
        rw [Renaming.applyText_of_not_mem hyr] at hxy
        exact absurd ⟨hx, hxr, hxy ▸ hy⟩ hxfree
    · by_cases hyr : y ∈ r.keys
      · rw [Renaming.applyText_of_not_mem hxr] at hxy
        exact absurd ⟨hy, hyr, hxy ▸ hx⟩ hyfree
      · rwa [Renaming.applyText_of_not_mem hxr, Renaming.applyText_of_not_mem hyr] at hxy
  rw [keys_renamed, List.perm_ext_iff_of_nodup (nodup_eraseDups _) hsurvivors]
  intro target
  rw [List.mem_eraseDups]
  constructor
  · intro htarget
    obtain ⟨name, hname, rfl⟩ := List.mem_map.1 htarget
    by_cases hclash : name ∈ b.clashes r
    · -- the name that is there already stands for both
      obtain ⟨-, hrenamed, hother⟩ := mem_clashes_iff.1 hclash
      refine List.mem_map.2 ⟨r.applyText name, ?_, h.applyText_applyText name⟩
      rw [List.mem_filter, decide_eq_true_iff, mem_clashes_iff]
      exact ⟨hother, fun hagain => h.fresh name hrenamed hagain.2.1⟩
    · exact List.mem_map_of_mem (List.mem_filter.2 ⟨hname, decide_eq_true hclash⟩)
  · intro htarget
    obtain ⟨name, hname, rfl⟩ := List.mem_map.1 htarget
    exact List.mem_map_of_mem (List.mem_filter.1 hname).1

/-- A value is lost for each name that clashes, and no other. -/
theorem size_renamed (h : r.Separates) (b : Bindings) :
    (b.renamed r).size + (b.clashes r).length = b.size := by
  have hkeys : ∀ c : Bindings, c.size = c.keys.length := fun c => (List.length_map _).symm
  have hclashes : b.keys.filter (fun name => name ∈ b.clashes r) = b.clashes r := by
    refine List.filter_congr fun name hname => decide_eq_decide.2 ?_
    rw [mem_clashes_iff]
    exact and_iff_right hname
  have hsplit := List.length_eq_length_filter_add (l := b.keys) fun name => name ∈ b.clashes r
  rw [hclashes] at hsplit
  rw [hkeys, hkeys, (perm_keys_renamed h b).length_eq, List.length_map, hsplit, Nat.add_comm]
  simp only [decide_not]

/-- What becomes of the values of `b` in `b'`, in which they stand under the names that `r`
gives them. -/
structure Carried (r : Renaming) (b b' : Bindings) : Prop where
  /-- One value is lost for each name that clashes. -/
  size : b'.size + (b.clashes r).length = b.size
  entries : b.clashes r = [] →
    b'.entries = b.entries.map fun (name, value) => (r.applyText name, value)
  kept : ∀ name ∈ b.keys, name ∉ r.keys → name ∉ (b.clashes r).map r.applyText →
    b'.get? name = b.get? name
  moved : ∀ name ∈ b.keys, name ∈ r.keys → name ∉ b.clashes r →
    b'.get? (r.applyText name) = b.get? name
  /-- Of the values of a name that clashes and of its target the later one is left. -/
  later : ∀ name ∈ b.clashes r, ∀ before last value after,
    b.entries = before ++ (last, value) :: after → last = name ∨ last = r.applyText name →
      (∀ e ∈ after, e.1 ≠ name ∧ e.1 ≠ r.applyText name) →
        b'.get? (r.applyText name) = some value

/-- What renamed bindings carry over if the new names are apart from the old ones. -/
theorem carried_renamed (h : r.Separates) (b : Bindings) : Carried r b (b.renamed r) := by
  constructor
  case size => exact size_renamed h b
  case entries =>
    intro hnone
    apply entries_renamed
    have hall : b.keys.filter (fun name => name ∉ b.clashes r) = b.keys := by
      simp [hnone]
    have hperm := perm_keys_renamed h b
    rw [hall] at hperm
    exact hperm.nodup_iff.1 (b.renamed r).nodup
  case kept =>
    intro name hname hkept hfree
    have hself : r.applyText name = name := Renaming.applyText_of_not_mem hkept
    have hget : (b.renamed r).get? (r.applyText name) = b.get? name := by
      refine get?_renamed fun other hother htext => ?_
      rw [hself] at htext
      by_cases hrenamed : other ∈ r.keys
      · have hclash : other ∈ b.clashes r := mem_clashes_iff.2 ⟨hother, hrenamed, htext ▸ hname⟩
        exact absurd (List.mem_map.2 ⟨other, hclash, htext⟩) hfree
      · rwa [Renaming.applyText_of_not_mem hrenamed] at htext
    rwa [hself] at hget
  case moved =>
    intro name hname hrenamed hfree
    refine get?_renamed fun other hother htext => ?_
    by_cases hother' : other ∈ r.keys
    · exact h.injective other hother' name hrenamed htext
    · rw [Renaming.applyText_of_not_mem hother'] at htext
      exact absurd (mem_clashes_iff.2 ⟨hname, hrenamed, htext ▸ hother⟩) hfree
  case later =>
    intro name hclash before last value after hentries hlast hafter
    obtain ⟨-, hrenamed, -⟩ := mem_clashes_iff.1 hclash
    have htarget : r.applyText last = r.applyText name := by
      rcases hlast with rfl | rfl
      · rfl
      · exact h.applyText_applyText name
    rw [← htarget]
    refine get?_renamed_of_last hentries fun e he htext => ?_
    obtain ⟨hname, hother⟩ := hafter e he
    rw [htarget] at htext
    by_cases hkey : e.1 ∈ r.keys
    · exact hname (h.injective e.1 hkey name hrenamed htext)
    · rw [Renaming.applyText_of_not_mem hkey] at htext
      exact hother htext

end Bindings

end GraphQuery
