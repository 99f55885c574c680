import GraphQuery.Identifier
import GraphQuery.Number.Integer

/-!
# Supplies of fresh names

A supply hands out the names `stem0`, `stem1`, `stem2` and so on, and never one
of them twice. Names of the user that begin with the stem are not seen by the
supply; where they matter, `firstUnused` passes over those that are taken.
-/

set_option autoImplicit false

namespace GraphQuery

theorem isNumeral_of_isDigit {c : Char} (h : c.isDigit = true) : Text.isNumeral c = true := by
  have hc : c.toNat ≤ Text.lastAscii := by
    simp only [Char.isDigit, Bool.and_eq_true, decide_eq_true_eq] at h
    have : c.val.toNat ≤ 57 := h.2
    exact Nat.le_trans this (by decide)
  simp [Text.isNumeral, Text.CodePoints.containsBeyondAscii, hc, h]

theorem isIdentifier_append_digits {s : List Char} (n : Nat) (h : isIdentifier s = true) :
    isIdentifier (s ++ Number.digits n) = true := by
  cases s with
  | nil => simp [isIdentifier] at h
  | cons c rest =>
      simp only [isIdentifier, Bool.and_eq_true, List.cons_append, List.all_append] at h ⊢
      refine ⟨h.1, h.2, ?_⟩
      rw [List.all_eq_true]
      intro d hd
      have := isNumeral_of_isDigit (Nat.isDigit_of_mem_toDigits (by decide) (by decide) hd)
      simp [isIdentifierPart, this]

/-- The stem with a number behind it. -/
def Identifier.numbered (stem : Identifier) (n : Nat) : Identifier where
  text := String.ofList (stem.text.toList ++ Number.digits n)
  legal := by
    rw [String.toList_ofList]
    exact isIdentifier_append_digits n stem.legal

/-- A stem and the number of names handed out so far. -/
structure NameSupply where
  stem : Identifier
  issued : Nat
  deriving DecidableEq

namespace NameSupply

/-- The stem of supplies for which none is chosen. -/
def defaultStem : Identifier := ⟨"__cyql", by decide⟩

/-- A supply from which nothing has been drawn. -/
def ofStem (stem : Identifier) : NameSupply := ⟨stem, 0⟩

/-- A supply with the default stem. -/
def fresh : NameSupply := ofStem defaultStem

/-- The name that is drawn next. -/
def next (s : NameSupply) : Identifier := s.stem.numbered s.issued

/-- The supply after one more draw. -/
def advance (s : NameSupply) : NameSupply := ⟨s.stem, s.issued + 1⟩

/-- Names drawn one after the other, and the supply after them. -/
def take (s : NameSupply) : Nat → List Identifier × NameSupply
  | 0 => ([], s)
  | n + 1 =>
      let drawn := s.advance.take n
      (s.next :: drawn.1, drawn.2)

/-- Draws names until one is not taken, at most `tries` names in vain. -/
def search (s : NameSupply) (taken : List Identifier) : Nat → Identifier × NameSupply
  | 0 => (s.next, s.advance)
  | tries + 1 =>
      if s.next ∈ taken then s.advance.search taken tries else (s.next, s.advance)

/-- Draws names until one is not taken. Distinct draws cannot all be taken, so
as many draws in vain as there are taken names are enough. -/
def firstUnused (s : NameSupply) (taken : List Identifier) : Identifier × NameSupply :=
  s.search taken taken.length

end NameSupply

end GraphQuery
