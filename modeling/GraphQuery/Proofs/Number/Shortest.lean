import GraphQuery.Proofs.Number.Shape
import Mathlib.Data.List.TakeWhile

/-!
# What the search for a shortest decimal returns

The decimal that the search returns either is a point of some grid that reads back
as the magnitude or equals the magnitude (`shortest_spec`). No magnitude but zero
reads back from zero, so the decimal has digits, and the text of a finite double
has the shape of a number (`isNumeral_text`).
-/

set_option autoImplicit false

namespace GraphQuery.Number

namespace Magnitude

variable {g : Magnitude} {tie : Tie}

/-- A multiple of the unit that is found on the grid reads back. -/
theorem readsBack_of_onGrid? {unit : Int} {n : Nat} (h : g.onGrid? tie unit = some n) :
    g.readsBack (g.inUnits unit).1 (g.inUnits unit).2 n = true := by
  unfold onGrid? at h
  dsimp only at h
  split at h
  · cases h
  · next hbelow _ =>
      cases h
      exact hbelow
  · next habove =>
      cases h
      exact habove
  · next hbelow habove =>
      split at h
      · cases h
        exact hbelow
      · cases h
        exact habove
      · cases h
        exact habove
      · -- the even one of the two neighbours is one of the two
        cases h
        rcases Nat.mod_two_eq_zero_or_one ((g.inUnits unit).1 / (g.inUnits unit).2) with he | ho
        · rw [he, Nat.add_zero]
          exact hbelow
        · rw [ho]
          exact habove

/-- The shortest decimal is a point of a grid that reads back, or the magnitude
itself. -/
theorem shortest_spec (g : Magnitude) (tie : Tie) :
    (∃ n unit, g.shortest tie = Decimal.ofNat n unit ∧
      g.readsBack (g.inUnits unit).1 (g.inUnits unit).2 n = true) ∨
    g.shortest tie = g.exactDecimal := by
  unfold shortest
  cases hfind : (List.range' 1 17).findSome? (g.withDigits? tie) with
  | none => exact .inr rfl
  | some d =>
      obtain ⟨count, -, hcount⟩ := List.exists_of_findSome?_eq_some hfind
      obtain ⟨n, hn, hd⟩ := Option.map_eq_some_iff.1 hcount
      exact .inl ⟨n, _, hd.symm, readsBack_of_onGrid? hn⟩

theorem num_pos (hg : 0 < g.mantissa) : 0 < g.num :=
  Nat.mul_pos hg (Nat.pow_pos (by decide))

theorem den_pos (g : Magnitude) : 0 < g.den := Nat.pow_pos (by decide)

/-- No positive magnitude reads back from zero. -/
theorem ne_zero_of_readsBack (hg : 0 < g.mantissa) {a b n : Nat} (ha : 0 < a)
    (h : g.readsBack a b n = true) : n ≠ 0 := by
  intro hn
  have hexceeds : ∀ k, 1 < k → a < k * a := fun k hk => (Nat.lt_mul_iff_one_lt_left ha).2 hk
  have hnarrow := hexceeds (4 * g.mantissa) (by omega)
  have hwide := hexceeds (2 * g.mantissa) (by omega)
  simp only [readsBack, hn, Nat.zero_mul, Nat.zero_le, if_true, Nat.sub_zero] at h
  split at h <;> split at h <;> simp only [decide_eq_true_eq] at h <;> omega

/-- A magnitude that is not zero is not zero in other units. -/
theorem inUnits_pos (hg : 0 < g.mantissa) (unit : Int) : 0 < (g.inUnits unit).1 :=
  Nat.mul_pos (num_pos hg) (Nat.pow_pos (by decide))

end Magnitude

namespace Decimal

/-- Zeros at the end of a list of digits can be split off. -/
theorem exists_trailing_zeros (ds : List Char) :
    ∃ k, ds = (ds.reverse.dropWhile (· == '0')).reverse ++ List.replicate k '0' := by
  refine ⟨(ds.reverse.takeWhile (· == '0')).length, ?_⟩
  have hzeros : ds.reverse.takeWhile (· == '0') =
      List.replicate (ds.reverse.takeWhile (· == '0')).length '0' := by
    rw [List.eq_replicate_iff]
    refine ⟨rfl, fun c hc => ?_⟩
    simpa using List.mem_takeWhile_imp hc
  rw [← List.reverse_replicate, ← hzeros, ← List.reverse_append, List.takeWhile_append_dropWhile,
    List.reverse_reverse]

/-- A decimal that is not zero has digits. -/
theorem digits_ofNat_ne_nil {n : Nat} (hn : n ≠ 0) (unit : Int) :
    (Decimal.ofNat n unit).digits ≠ [] := by
  intro h
  obtain ⟨k, hk⟩ := exists_trailing_zeros (Number.digits n)
  have hzeros : Number.digits n = List.replicate k '0' := by
    rw [show (Number.digits n).reverse.dropWhile (· == '0') = [] from List.reverse_eq_nil_iff.1 h]
      at hk
    exact hk
  have hvalue := Nat.ofDigitChars_ten_toDigits (n := n)
  rw [show Nat.toDigits 10 n = List.replicate k '0' from hzeros] at hvalue
  exact hn (by simpa using hvalue.symm)

end Decimal

/-- The shortest decimal of a magnitude is not zero. -/
theorem Magnitude.shortest_eq_ofNat {g : Magnitude} (hg : 0 < g.mantissa) (tie : Tie) :
    ∃ n unit, n ≠ 0 ∧ g.shortest tie = Decimal.ofNat n unit := by
  rcases g.shortest_spec tie with ⟨n, unit, hd, hread⟩ | hd
  · exact ⟨n, unit, ne_zero_of_readsBack hg (inUnits_pos hg unit) hread, hd⟩
  · refine ⟨_, _, ?_, hd⟩
    exact Nat.pos_iff_ne_zero.1 (Nat.mul_pos (num_pos hg) (Nat.pow_pos (by decide)))

namespace Binary64

/-- A double that is not zero has a mantissa that is not zero. -/
theorem mantissa_pos {x : Binary64} (hx : x.isZero = false) : 0 < x.magnitude.mantissa := by
  unfold magnitude
  split
  · next hfield =>
      have : x.fraction ≠ 0 := by simpa [isZero, hfield] using hx
      exact Nat.pos_iff_ne_zero.2 this
  · exact Nat.add_pos_left (Nat.pow_pos (by decide)) _

/-- A double is written as its sign and the shortest decimal of its magnitude. -/
theorem toList_write (x : Binary64) (style : Style) :
    (x.write style).toList = (if x.isNegative then ['-'] else []) ++
      if x.isZero then ['0', '.', '0'] else (x.magnitude.shortest style.tie).write style := by
  unfold write
  cases x.isNegative <;> simp

end Binary64

/-- The text of a finite double has the shape of a number. -/
theorem isNumeral_text (x : FiniteDouble) : IsNumeral x.value.text.toList := by
  rw [Binary64.text, if_pos x.finite, Binary64.toList_write]
  refine IsNumeral.append ?_ ?_
  · split
    · exact isNumeral_mark rfl (by decide) trivial
    · trivial
  · split
    · have hzero := isNumeral_point (allDigits_replicate_zero 1) (by decide)
      exact isNumeral_mark rfl (by decide) hzero
    · next hzero =>
        have hpos := Binary64.mantissa_pos (eq_false_of_ne_true hzero)
        obtain ⟨n, unit, hn, hd⟩ := Magnitude.shortest_eq_ofNat hpos queryStyle.tie
        rw [hd]
        exact Decimal.isNumeral_write (Decimal.allDigits_ofNat n unit)
          (Decimal.digits_ofNat_ne_nil hn unit) rfl

end GraphQuery.Number
