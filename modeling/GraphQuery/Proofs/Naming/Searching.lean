import GraphQuery.Proofs.Merging.Supply
import GraphQuery.Proofs.Rendering.Draws

/-!
# Draws in a search

A search for an unused name is a loop without a bound of its own: it draws name after name
until one is not taken. `NameSupply.Searches` is that loop, with all the names that it draws,
and `NameSupply.Draws` says of a list of names that they are the next names of a supply.

Main statements: `NameSupply.searches_least`, the loop ends, after one draw more than there
are taken names at most, and `NameSupply.searches_firstUnused`, a bounded search that is given
as many tries is a run of the loop. There is one way for the loop to run.
-/

set_option autoImplicit false

namespace GraphQuery

namespace NameSupply

/-! ## Names drawn one after the other -/

/-- The next names of a supply, and the supply that is left when they are drawn. -/
def Draws (s : NameSupply) (names : List Identifier) (left : NameSupply) : Prop :=
  s.take names.length = (names, left)

/-- The names of several draws are numbered on from the supply. -/
theorem take_eq (s : NameSupply) (draws : Nat) :
    s.take draws = ((List.range' s.issued draws).map s.stem.numbered, s.after draws) := by
  induction draws generalizing s with
  | zero => rfl
  | succ draws ih =>
      have hissued : s.advance.issued = s.issued + 1 := rfl
      have hstem : s.advance.stem = s.stem := rfl
      rw [take, ih, hissued, hstem, advance_after, Nat.add_comm 1, List.range'_succ]
      rfl

theorem length_take (s : NameSupply) (draws : Nat) : (s.take draws).1.length = draws := by
  rw [take_eq, List.length_map, List.length_range']

/-- Draws in two goes are the draws in one. -/
theorem take_add (s : NameSupply) (first second : Nat) :
    s.take (first + second) =
      ((s.take first).1 ++ ((s.take first).2.take second).1,
        ((s.take first).2.take second).2) := by
  have hissued : (s.after first).issued = s.issued + first := rfl
  have hstem : (s.after first).stem = s.stem := rfl
  rw [take_eq s (first + second), take_eq s first, take_eq (s.after first) second, hissued, hstem,
    ← List.map_append, List.range'_append_1, after_after]

namespace Draws

variable {s mid left : NameSupply} {names more : List Identifier}

theorem nil (s : NameSupply) : s.Draws [] s := rfl

theorem cons (h : s.advance.Draws names left) : s.Draws (s.next :: names) left := by
  rw [Draws, List.length_cons, take, h]

theorem one (s : NameSupply) : s.Draws [s.next] s.advance := (nil s.advance).cons

/-- Draws one after the other are draws. -/
theorem append (h : s.Draws names mid) (hmore : mid.Draws more left) :
    s.Draws (names ++ more) left := by
  rw [Draws, List.length_append, take_add, h, hmore]

/-- The supply behind draws is told by their number. -/
theorem left_eq (h : s.Draws names left) : left = s.after names.length := by
  have hleft := congrArg Prod.snd h
  rw [take_eq] at hleft
  exact hleft.symm

end Draws

/-! ## The loop -/

/-- The loop that draws names until one is not taken. `names` are all that it draws; it ends
with the last of them and with the supply that is left. -/
inductive Searches (taken : List Identifier) :
    NameSupply → List Identifier → Identifier × NameSupply → Prop where
  | found {s : NameSupply} (h : s.next ∉ taken) : Searches taken s [s.next] (s.next, s.advance)
  | again {s : NameSupply} {names : List Identifier} {result : Identifier × NameSupply}
      (h : s.next ∈ taken) (rest : Searches taken s.advance names result) :
      Searches taken s (s.next :: names) result

namespace Searches

variable {taken : List Identifier} {s : NameSupply} {names names' : List Identifier}
  {result result' : Identifier × NameSupply}

/-- There is one way for the loop to run. -/
theorem unique (h : Searches taken s names result) (h' : Searches taken s names' result') :
    names' = names ∧ result' = result := by
  induction h generalizing names' with
  | found hfree =>
      cases h' with
      | found _ => exact ⟨rfl, rfl⟩
      | again htaken _ => exact absurd htaken hfree
  | again htaken _ ih =>
      cases h' with
      | found hfree => exact absurd htaken hfree
      | again _ rest =>
          obtain ⟨rfl, rfl⟩ := ih rest
          exact ⟨rfl, rfl⟩

/-- A search draws all names that it tries. -/
theorem draws (h : Searches taken s names result) : s.Draws names result.2 := by
  induction h with
  | found _ => exact .one _
  | again _ _ ih => exact ih.cons

end Searches

/-! ## Searches with a bound -/

/-- The names that a bounded search draws. -/
def tried (s : NameSupply) (taken : List Identifier) : Nat → List Identifier
  | 0 => [s.next]
  | tries + 1 => if s.next ∈ taken then s.next :: s.advance.tried taken tries else [s.next]

/-- The names that are drawn to find one that is not taken. -/
def attempts (s : NameSupply) (taken : List Identifier) : List Identifier :=
  s.tried taken taken.length

/-- A search of limited length tries one name more than its limit, at most. -/
theorem length_tried_le (s : NameSupply) (taken : List Identifier) (tries : Nat) :
    (s.tried taken tries).length ≤ tries + 1 := by
  induction tries generalizing s with
  | zero => simp [tried]
  | succ tries ih =>
      rw [tried]
      split
      · simpa using ih s.advance
      · simp

/-- A bounded search that finds an unused name is a run of the loop. -/
theorem searches_search {taken : List Identifier} {tries : Nat} {s : NameSupply}
    (h : (s.search taken tries).1 ∉ taken) :
    Searches taken s (s.tried taken tries) (s.search taken tries) := by
  induction tries generalizing s with
  | zero => exact .found h
  | succ tries ih =>
      rw [search, tried]
      rw [search] at h
      by_cases htaken : s.next ∈ taken
      · rw [if_pos htaken] at h ⊢
        rw [if_pos htaken]
        exact .again htaken (ih h)
      · rw [if_neg htaken, if_neg htaken]
        exact .found htaken

/-- The loop ends, and the bounded search finds what it ends with. -/
theorem searches_firstUnused (s : NameSupply) (taken : List Identifier) :
    Searches taken s (s.attempts taken) (s.firstUnused taken) := by
  obtain ⟨m, -, hfound, hfree, -⟩ := s.firstUnused_spec taken
  rw [firstUnused] at hfound
  have hunused : (s.search taken taken.length).1 ∉ taken := by
    rw [hfound]
    exact hfree
  exact searches_search hunused

/-- The loop draws one name more than there are taken names at most, and ends with the first
that is not taken. -/
theorem searches_least (s : NameSupply) (taken : List Identifier) :
    ∃ m, Searches taken s (s.attempts taken) (s.stem.numbered m, ⟨s.stem, m + 1⟩) ∧
      (s.attempts taken).length ≤ 1 + taken.length ∧ s.issued ≤ m ∧
      s.stem.numbered m ∉ taken ∧
      ∀ j, s.issued ≤ j → j < m → s.stem.numbered j ∈ taken := by
  obtain ⟨m, hm, hfound, hfree, hbefore⟩ := s.firstUnused_spec taken
  have hloop := s.searches_firstUnused taken
  rw [hfound] at hloop
  have hlength := s.length_tried_le taken taken.length
  rw [Nat.add_comm] at hlength
  exact ⟨m, hloop, hlength, hm, hfree, hbefore⟩

/-- A name that is not taken is drawn at once. -/
theorem attempts_of_free {s : NameSupply} {taken : List Identifier} (h : s.next ∉ taken) :
    s.attempts taken = [s.next] ∧ s.firstUnused taken = (s.next, s.advance) :=
  (Searches.found h).unique (s.searches_firstUnused taken)

end NameSupply

end GraphQuery
