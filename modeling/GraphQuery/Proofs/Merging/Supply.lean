import GraphQuery.NameSupply
import GraphQuery.Proofs.Number.Shape

/-!
# Draws from a supply

Distinct numbers give distinct names, so a search for an unused name cannot be in
vain once for every taken name and then once more. Main statement:
`NameSupply.firstUnused_spec`, the search returns the first name from the supply
that is not taken.
-/

set_option autoImplicit false

namespace GraphQuery

/-- Identifiers with the same text are equal. -/
theorem Identifier.ext_text {a b : Identifier} (h : a.text = b.text) : a = b := by
  cases a
  cases b
  cases h
  rfl

/-- Names that are kept apart as identifiers are kept apart as texts. -/
theorem Identifier.nodup_texts {names : List Identifier} (h : names.Nodup) :
    (names.map Identifier.text).Nodup :=
  List.Pairwise.map Identifier.text (fun _ _ hne htext => hne (ext_text htext)) h

/-- Numbered names of one stem are different for different numbers. -/
theorem Identifier.numbered_injective {stem : Identifier} {n m : Nat}
    (h : stem.numbered n = stem.numbered m) : n = m := by
  have htext : stem.text.toList ++ Number.digits n = stem.text.toList ++ Number.digits m :=
    String.ofList_inj.1 (congrArg Identifier.text h)
  exact Number.digits_injective (List.append_cancel_left htext)

namespace NameSupply

/-- A search stops at some name from the supply. Every name before it is taken, and
it is taken itself only if all tries were in vain. -/
theorem search_spec (s : NameSupply) (taken : List Identifier) (tries : Nat) :
    ∃ m, s.issued ≤ m ∧ s.search taken tries = (s.stem.numbered m, ⟨s.stem, m + 1⟩) ∧
      (∀ j, s.issued ≤ j → j < m → s.stem.numbered j ∈ taken) ∧
      (s.stem.numbered m ∈ taken → m = s.issued + tries) := by
  induction tries generalizing s with
  | zero => exact ⟨s.issued, Nat.le_refl _, rfl, fun j hle hlt => by omega, fun _ => rfl⟩
  | succ tries ih =>
      by_cases htaken : s.next ∈ taken
      · -- the search goes on from the next number with one try less
        obtain ⟨m, hm, hresult, hbefore, hlast⟩ := ih s.advance
        have hissued : s.advance.issued = s.issued + 1 := rfl
        refine ⟨m, by omega, ?_, fun j hle hlt => ?_, fun h => ?_⟩
        · rw [search, if_pos htaken, hresult]
          rfl
        · rcases Nat.eq_or_lt_of_le hle with rfl | hlater
          · exact htaken
          · exact hbefore j hlater hlt
        · have := hlast h
          omega
      · refine ⟨s.issued, Nat.le_refl _, ?_, fun j hle hlt => by omega, fun h => ?_⟩
        · rw [search, if_neg htaken]
          rfl
        · exact absurd h htaken

/-- More names than are taken cannot all be taken. -/
theorem exists_not_taken (stem : Identifier) (first : Nat) (taken : List Identifier) :
    ∃ j, first ≤ j ∧ j ≤ first + taken.length ∧ stem.numbered j ∉ taken := by
  refine Classical.byContradiction fun hall => ?_
  -- otherwise the list would hold one more distinct name than it has members
  have hsub : (List.range' first (taken.length + 1)).map stem.numbered ⊆ taken := by
    intro id hid
    obtain ⟨j, hj, rfl⟩ := List.mem_map.1 hid
    have hrange := List.mem_range'_1.1 hj
    refine Classical.byContradiction fun hnot => hall ⟨j, hrange.1, by omega, hnot⟩
  have hnodup : ((List.range' first (taken.length + 1)).map stem.numbered).Nodup := by
    rw [List.Nodup, List.pairwise_map]
    have hrange : (List.range' first (taken.length + 1)).Nodup := List.nodup_range'
    exact hrange.imp fun hne heq => hne (Identifier.numbered_injective heq)
  have hlength := hnodup.length_le_of_subset hsub
  rw [List.length_map, List.length_range'] at hlength
  omega

/-- The search for an unused name returns the first one from the supply. -/
theorem firstUnused_spec (s : NameSupply) (taken : List Identifier) :
    ∃ m, s.issued ≤ m ∧ s.firstUnused taken = (s.stem.numbered m, ⟨s.stem, m + 1⟩) ∧
      s.stem.numbered m ∉ taken ∧
      ∀ j, s.issued ≤ j → j < m → s.stem.numbered j ∈ taken := by
  obtain ⟨m, hm, hresult, hbefore, hlast⟩ := s.search_spec taken taken.length
  refine ⟨m, hm, hresult, fun htaken => ?_, hbefore⟩
  -- otherwise all names up to the last one tried would be taken
  obtain ⟨j, hle, hlt, hfree⟩ := exists_not_taken s.stem s.issued taken
  have hbound := Nat.le_trans hlt (Nat.le_of_eq (hlast htaken).symm)
  rcases Nat.eq_or_lt_of_le hbound with rfl | hearlier
  · exact hfree htaken
  · exact hfree (hbefore j hle hearlier)

end NameSupply

end GraphQuery
