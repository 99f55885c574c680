import GraphQuery.Proofs.Number.Decimal
import Mathlib.Tactic.Linarith

/-!
# Doubles are recovered from their texts

A number rounds to a magnitude when it lies between the midpoints to the neighbours of
the magnitude, at a midpoint only if the mantissa is even. The magnitudes of the format
follow each other: the upper midpoint of one is the lower midpoint of the next, and
mantissas are even and odd in turns. So a number rounds to one magnitude at most
(`RoundsTo.unique`), and since the text of a finite double denotes a number that rounds
to its magnitude, the text determines the double.

Main statement: `text_injective`.
-/

set_option autoImplicit false

namespace GraphQuery.Number

namespace Magnitude

/-- Half the distance to the neighbour above. -/
def half (g : Magnitude) : ℚ := 2 ^ (g.exponent - 1)

/-- The number that a magnitude stands for. -/
def value (g : Magnitude) : ℚ := 2 * g.mantissa * g.half

/-- The midpoint to the neighbour above. -/
def upper (g : Magnitude) : ℚ := (2 * g.mantissa + 1) * g.half

/-- The midpoint to the neighbour below. -/
def lower (g : Magnitude) : ℚ := (2 * g.mantissa - if g.narrowBelow then 1 / 2 else 1) * g.half

/-- The number rounds to the magnitude. -/
structure RoundsTo (w : ℚ) (g : Magnitude) : Prop where
  lower_le : g.lower ≤ w
  le_upper : w ≤ g.upper
  strict : g.mantissa % 2 = 1 → g.lower < w ∧ w < g.upper

theorem half_pos (g : Magnitude) : 0 < g.half := zpow_pos (by norm_num) _

/-- A magnitude lies below the border to the next one. -/
theorem value_lt_upper (g : Magnitude) : g.value < g.upper := by
  have := g.half_pos
  unfold value upper
  linarith

/-- A magnitude lies above the border to the one before. -/
theorem lower_lt_value (g : Magnitude) : g.lower < g.value := by
  have := g.half_pos
  unfold value lower
  split <;> linarith

/-- A magnitude rounds to itself. -/
theorem roundsTo_value (g : Magnitude) : RoundsTo g.value g :=
  ⟨g.lower_lt_value.le, g.value_lt_upper.le, fun _ => ⟨g.lower_lt_value, g.value_lt_upper⟩⟩

/-! ## Reading back -/

theorem zpow_mul_toNat {c : ℚ} (hc : c ≠ 0) (e : Int) :
    c ^ e * c ^ (-e).toNat = c ^ e.toNat := by
  rw [← zpow_natCast, ← zpow_natCast c e.toNat, ← zpow_add₀ hc]
  congr 1
  omega

/-- The value of a magnitude is its mantissa times a power of two. -/
theorem value_eq (g : Magnitude) : g.value = g.mantissa * 2 ^ g.exponent := by
  have hdouble : (2 : ℚ) ^ g.exponent = 2 * 2 ^ (g.exponent - 1) := by
    rw [← zpow_one_add₀ (by norm_num)]
    congr 1
    omega
  rw [value, half, hdouble]
  ring

/-- The magnitude in units of a power of ten, as a fraction. -/
theorem inUnits_eq (g : Magnitude) (unit : Int) :
    ((g.inUnits unit).1 : ℚ) * 10 ^ unit = g.value * (g.inUnits unit).2 := by
  have htwo := zpow_mul_toNat (c := 2) (by norm_num) g.exponent
  have hten := zpow_mul_toNat (c := 10) (by norm_num) unit
  have hnum : ((g.inUnits unit).1 : ℚ) =
      g.mantissa * 2 ^ g.exponent.toNat * 10 ^ (-unit).toNat := by
    simp [inUnits, num]
  have hden : ((g.inUnits unit).2 : ℚ) = 2 ^ (-g.exponent).toNat * 10 ^ unit.toNat := by
    simp [inUnits, den]
  rw [hnum, hden, value_eq, ← htwo, ← hten]
  ring

theorem inUnits_den_pos (g : Magnitude) (unit : Int) : 0 < (g.inUnits unit).2 :=
  Nat.mul_pos g.den_pos (Nat.pow_pos (by decide))

/-- An excess of `d`, times the mantissa and a factor, compares to `a` as the same
distance on the scale of numbers, times the factor, to the gap between neighbours. -/
theorem excess_iff {g : Magnitude} (hg : 0 < g.mantissa) {a b d : Nat} {t w : ℚ} (hb : 0 < b)
    (ht : 0 < t) (ha : a * t = g.value * b) (hw : w * b = d * t) (factor : Nat) :
    (factor * g.mantissa * d ≤ a ↔ factor * w ≤ 2 * g.half) ∧
    (factor * g.mantissa * d < a ↔ factor * w < 2 * g.half) := by
  have hscale : (0 : ℚ) < g.mantissa * b := mul_pos (Nat.cast_pos.2 hg) (Nat.cast_pos.2 hb)
  have hleft : ((factor * g.mantissa * d : ℕ) : ℚ) * t = factor * w * (g.mantissa * b) := by
    have hregroup : factor * w * (g.mantissa * b) = factor * g.mantissa * (w * b) := by ring
    rw [hregroup, hw]
    push_cast
    ring
  have hright : a * t = 2 * g.half * (g.mantissa * b) := by
    rw [ha, value]
    ring
  constructor
  · rw [← Nat.cast_le (α := ℚ), ← mul_le_mul_iff_of_pos_right ht, hleft, hright,
      mul_le_mul_iff_of_pos_right hscale]
  · rw [← Nat.cast_lt (α := ℚ), ← mul_lt_mul_iff_of_pos_right ht, hleft, hright,
      mul_lt_mul_iff_of_pos_right hscale]

/-- A comparison in units tells the side of the lower border. The gap below is narrower at a power
of two. -/
theorem lower_iff (g : Magnitude) (w : ℚ) :
    (((if g.narrowBelow then 4 else 2 : Nat) : ℚ) * (g.value - w) ≤ 2 * g.half ↔ g.lower ≤ w) ∧
    (((if g.narrowBelow then 4 else 2 : Nat) : ℚ) * (g.value - w) < 2 * g.half ↔
      g.lower < w) := by
  unfold lower value
  cases g.narrowBelow
  · constructor <;> constructor <;> intro h <;> simp at h ⊢ <;> linarith
  · constructor <;> constructor <;> intro h <;> simp at h ⊢ <;> linarith

/-- A comparison in units tells the side of the upper border. -/
theorem upper_iff (g : Magnitude) (w : ℚ) :
    (((2 : Nat) : ℚ) * (w - g.value) ≤ 2 * g.half ↔ w ≤ g.upper) ∧
    (((2 : Nat) : ℚ) * (w - g.value) < 2 * g.half ↔ w < g.upper) := by
  unfold upper value
  push_cast
  constructor <;> constructor <;> intro h <;> linarith

/-- A test that is strict for odd numbers. -/
theorem of_parity_test {m : Nat} {p q : Prop} [Decidable p] [Decidable q] (hpq : q → p)
    (h : (if m % 2 = 0 then decide p else decide q) = true) : p ∧ (m % 2 = 1 → q) := by
  split at h
  · next heven => exact ⟨of_decide_eq_true h, fun hodd => by omega⟩
  · exact ⟨hpq (of_decide_eq_true h), fun _ => of_decide_eq_true h⟩

/-- What reads back as a magnitude rounds to it. -/
theorem roundsTo_of_readsBack {g : Magnitude} (hg : 0 < g.mantissa) {unit : Int} {n : Nat}
    (h : g.readsBack (g.inUnits unit).1 (g.inUnits unit).2 n = true) :
    RoundsTo (n * 10 ^ unit) g := by
  have hfraction := g.inUnits_eq unit
  have hden := g.inUnits_den_pos unit
  generalize (g.inUnits unit).1 = a at h hfraction
  generalize (g.inUnits unit).2 = b at h hfraction hden
  have ht : (0 : ℚ) < 10 ^ unit := zpow_pos (by norm_num) _
  generalize (10 : ℚ) ^ unit = t at hfraction ht ⊢
  have hb : (0 : ℚ) < b := Nat.cast_pos.2 hden
  by_cases hbelow : n * b ≤ a
  · -- the decimal lies below the magnitude or at it, so only the lower midpoint matters
    have hdistance : (g.value - n * t) * b = (a - n * b : ℕ) * t := by
      rw [Nat.cast_sub hbelow, sub_mul, sub_mul, ← hfraction]
      push_cast
      ring
    have hle : n * t ≤ g.value := by
      refine sub_nonneg.1 (nonneg_of_mul_nonneg_left ?_ hb)
      rw [hdistance]
      exact mul_nonneg (Nat.cast_nonneg _) ht.le
    have hupper := hle.trans_lt g.value_lt_upper
    obtain ⟨hle_iff, hlt_iff⟩ :=
      excess_iff hg hden ht hfraction hdistance (if g.narrowBelow then 4 else 2)
    simp only [readsBack, if_pos hbelow] at h
    obtain ⟨hlower, hstrict⟩ := of_parity_test Nat.le_of_lt h
    refine ⟨(g.lower_iff _).1.1 (hle_iff.1 hlower), hupper.le, fun hodd => ⟨?_, hupper⟩⟩
    exact (g.lower_iff _).2.1 (hlt_iff.1 (hstrict hodd))
  · -- the decimal lies above the magnitude, so only the upper midpoint matters
    have habove : a < n * b := Nat.lt_of_not_le hbelow
    have hdistance : (n * t - g.value) * b = (n * b - a : ℕ) * t := by
      rw [Nat.cast_sub habove.le, sub_mul, sub_mul, ← hfraction]
      push_cast
      ring
    have hle : g.value ≤ n * t := by
      refine sub_nonneg.1 (nonneg_of_mul_nonneg_left ?_ hb)
      rw [hdistance]
      exact mul_nonneg (Nat.cast_nonneg _) ht.le
    have hlower := g.lower_lt_value.trans_le hle
    obtain ⟨hle_iff, hlt_iff⟩ := excess_iff hg hden ht hfraction hdistance 2
    simp only [readsBack, if_neg hbelow] at h
    obtain ⟨hupper, hstrict⟩ := of_parity_test Nat.le_of_lt h
    refine ⟨hlower.le, (g.upper_iff _).1.1 (hle_iff.1 hupper), fun hodd => ⟨hlower, ?_⟩⟩
    exact (g.upper_iff _).2.1 (hlt_iff.1 (hstrict hodd))

/-! ## Magnitudes in order -/

/-- The magnitude of the double with the given bits and no sign. -/
def ofBits (k : Nat) : Magnitude :=
  if k / 2 ^ 52 = 0 then ⟨k % 2 ^ 52, -1074, false⟩
  else ⟨2 ^ 52 + k % 2 ^ 52, (k / 2 ^ 52 : Nat) - 1075, k % 2 ^ 52 = 0 ∧ 1 < k / 2 ^ 52⟩

/-- The last bit of a magnitude tells whether its mantissa is even. -/
theorem mantissa_ofBits (k : Nat) : (ofBits k).mantissa % 2 = k % 2 := by
  unfold ofBits
  split <;> dsimp only <;> omega

theorem lower_lt_upper (g : Magnitude) : g.lower < g.upper :=
  g.lower_lt_value.trans g.value_lt_upper

/-- Magnitudes of one exponent meet at their midpoint. -/
theorem lower_eq_upper {g g' : Magnitude} (he : g'.exponent = g.exponent)
    (hm : g'.mantissa = g.mantissa + 1) (hn : g'.narrowBelow = false) : g'.lower = g.upper := by
  simp only [lower, upper, half, he, hm, hn, Bool.false_eq_true, if_false]
  push_cast
  ring

/-- Where the exponent grows, the neighbour below is half as far away. -/
theorem lower_eq_upper_of_narrow {g g' : Magnitude} (he : g'.exponent = g.exponent + 1)
    (hm : 2 * g'.mantissa = g.mantissa + 1) (hn : g'.narrowBelow = true) :
    g'.lower = g.upper := by
  have hdouble : (2 : ℚ) ^ g.exponent = 2 * 2 ^ (g.exponent - 1) := by
    rw [← zpow_one_add₀ (by norm_num)]
    congr 1
    omega
  have hmantissa : 2 * (g'.mantissa : ℚ) = g.mantissa + 1 := by exact_mod_cast hm
  simp only [lower, upper, half, he, hmantissa, hn, if_true, Int.add_sub_cancel, hdouble]
  ring

/-- The upper midpoint of a magnitude is the lower midpoint of the next one. -/
theorem lower_ofBits_succ (k : Nat) : (ofBits (k + 1)).lower = (ofBits k).upper := by
  by_cases hfraction : k % 2 ^ 52 + 1 < 2 ^ 52
  · -- the fraction grows by one
    have hdiv : (k + 1) / 2 ^ 52 = k / 2 ^ 52 := by omega
    have hmod : (k + 1) % 2 ^ 52 = k % 2 ^ 52 + 1 := by omega
    unfold ofBits
    rw [hdiv, hmod]
    split
    · exact lower_eq_upper rfl rfl rfl
    · exact lower_eq_upper rfl (by dsimp only; omega) (by simp)
  · -- the fraction wraps round, and from the second exponent on the distances double
    have hdiv : (k + 1) / 2 ^ 52 = k / 2 ^ 52 + 1 := by omega
    have hmod : (k + 1) % 2 ^ 52 = 0 := by omega
    have hlast : k % 2 ^ 52 = 2 ^ 52 - 1 := by omega
    unfold ofBits
    rw [hdiv, hmod, hlast, if_neg (Nat.succ_ne_zero _)]
    generalize k / 2 ^ 52 = e
    split
    · next hzero => exact lower_eq_upper (by simp [hzero]) (by norm_num) (by simp [hzero])
    · next hpos =>
        have hnarrow : 1 < e + 1 := by omega
        refine lower_eq_upper_of_narrow ?_ (by norm_num) (by simp [hnarrow])
        show ((e + 1 : Nat) : Int) - 1075 = (e : Int) - 1075 + 1
        omega

/-- The lower borders grow with the bits. -/
theorem lower_strictMono : StrictMono fun k => (ofBits k).lower := by
  refine strictMono_nat_of_lt_succ fun k => ?_
  rw [lower_ofBits_succ]
  exact (ofBits k).lower_lt_upper

/-- A number rounds to one magnitude at most. -/
theorem RoundsTo.unique {w : ℚ} {k l : Nat} (hk : RoundsTo w (ofBits k))
    (hl : RoundsTo w (ofBits l)) : k = l := by
  have hnot : ∀ {k l : Nat}, RoundsTo w (ofBits k) → RoundsTo w (ofBits l) → ¬ k < l := by
    intro k l hk hl hlt
    have hmeet : (ofBits (k + 1)).lower ≤ (ofBits l).lower := lower_strictMono.monotone hlt
    have hupper := hk.le_upper
    have hlower := hl.lower_le
    rw [lower_ofBits_succ] at hmeet
    -- the number is the midpoint, so the two are neighbours, and one of them is odd
    have hsucc : l = k + 1 := by
      refine (lower_strictMono.injective ?_)
      simp only [lower_ofBits_succ]
      linarith
    subst hsucc
    rcases Nat.mod_two_eq_zero_or_one k with heven | hodd
    · have hstrict := (hl.strict (by rw [mantissa_ofBits]; omega)).1
      linarith
    · have hstrict := (hk.strict (by rw [mantissa_ofBits, hodd])).2
      linarith
  rcases Nat.lt_trichotomy k l with h | h | h
  · exact absurd h (hnot hk hl)
  · exact h
  · exact absurd h (hnot hl hk)

/-- The value of the shortest decimal rounds to the magnitude. -/
theorem roundsTo_shortest {g : Magnitude} (hg : 0 < g.mantissa) (tie : Tie) :
    RoundsTo (g.shortest tie).value g := by
  rcases g.shortest_spec tie with ⟨n, unit, hd, hread⟩ | hd
  · rw [hd, Decimal.value_ofNat]
    exact roundsTo_of_readsBack hg hread
  · -- the search was in vain, so the decimal equals the magnitude
    have hexact : g.exactDecimal.value = g.value := by
      have htwo := zpow_mul_toNat (c := 2) (by norm_num) g.exponent
      have hten : (10 : ℚ) ^ (-g.exponent).toNat =
          2 ^ (-g.exponent).toNat * 5 ^ (-g.exponent).toNat := by
        rw [← mul_pow]
        norm_num
      rw [exactDecimal, Decimal.value_ofNat, value_eq, zpow_neg, zpow_natCast, hten]
      simp only [num, Nat.pow_eq]
      push_cast
      rw [← htwo]
      field_simp
    rw [hd, hexact]
    exact g.roundsTo_value

end Magnitude

namespace Binary64

/-- The magnitude of a double is told by its bits without the sign. -/
theorem magnitude_eq_ofBits (x : Binary64) :
    x.magnitude = Magnitude.ofBits (x.bits.toNat % 2 ^ 63) := by
  have hfield : x.bits.toNat % 2 ^ 63 / 2 ^ 52 = x.exponentField := by
    unfold exponentField
    simp only [Nat.pow_eq]
    omega
  have hfraction : x.bits.toNat % 2 ^ 63 % 2 ^ 52 = x.fraction := by
    unfold fraction
    simp only [Nat.pow_eq]
    omega
  unfold magnitude Magnitude.ofBits
  rw [hfield, hfraction]
  rfl

/-- The text of a finite double without its sign. -/
def unsigned (x : Binary64) : List Char :=
  if x.isZero then ['0', '.', '0'] else (x.magnitude.shortest queryStyle.tie).write queryStyle

/-- The text of a finite double denotes a number that rounds to its magnitude. -/
theorem roundsTo_unsigned (x : Binary64) :
    Magnitude.RoundsTo (textValue x.unsigned) x.magnitude := by
  unfold unsigned
  split
  · next hzero =>
      obtain ⟨hfield, hfraction⟩ : x.exponentField = 0 ∧ x.fraction = 0 := of_decide_eq_true hzero
      have hmagnitude : x.magnitude = ⟨0, -1074, false⟩ := by
        rw [magnitude, if_pos hfield, hfraction]
      have htext : textValue ['0', '.', '0'] = Magnitude.value ⟨0, -1074, false⟩ := by
        have hdigit : AllDigits ['0'] := allDigits_replicate_zero 1
        have hzeros : digitsValue ['0', '0'] = 0 := digitsValue_replicate_zero 2
        have hvalue := textValue_point hdigit hdigit
        simp only [List.singleton_append] at hvalue
        rw [hvalue, hzeros, Magnitude.value]
        simp
      rw [hmagnitude, htext]
      exact Magnitude.roundsTo_value _
  · next hzero =>
      have hpos := mantissa_pos (eq_false_of_ne_true hzero)
      obtain ⟨n, unit, -, hd⟩ := Magnitude.shortest_eq_ofNat hpos queryStyle.tie
      have hrounds := Magnitude.roundsTo_shortest hpos queryStyle.tie
      rw [hd] at hrounds ⊢
      rw [Decimal.textValue_write (Decimal.allDigits_ofNat n unit)]
      exact hrounds

/-- The text of a magnitude begins with a digit. -/
theorem head_unsigned (x : Binary64) : x.unsigned.head?.any Char.isDigit = true := by
  unfold unsigned
  split
  · rfl
  · next hzero =>
      have hpos := mantissa_pos (eq_false_of_ne_true hzero)
      obtain ⟨n, unit, hn, hd⟩ := Magnitude.shortest_eq_ofNat hpos queryStyle.tie
      rw [hd]
      exact Decimal.head_write (Decimal.allDigits_ofNat n unit)
        (Decimal.digits_ofNat_ne_nil hn unit) queryStyle

/-- The text of a double is that of its magnitude behind its sign. -/
theorem toList_text {x : Binary64} (hx : x.isFinite = true) :
    x.text.toList = (if x.isNegative then ['-'] else []) ++ x.unsigned := by
  rw [text, if_pos hx, toList_write]
  rfl

/-- A text begins with a minus sign only if the double is negative. -/
theorem sign_unsigned_injective {x y : Binary64}
    (h : (if x.isNegative then ['-'] else []) ++ x.unsigned =
      (if y.isNegative then ['-'] else []) ++ y.unsigned) :
    x.isNegative = y.isNegative ∧ x.unsigned = y.unsigned := by
  have hne : ∀ z : Binary64, ∀ rest, z.unsigned ≠ '-' :: rest := by
    intro z rest hz
    have hhead := z.head_unsigned
    rw [hz] at hhead
    cases hhead
  cases hx : x.isNegative <;> cases hy : y.isNegative <;> rw [hx, hy] at h
  · exact ⟨rfl, h⟩
  · exact absurd h (hne x y.unsigned)
  · exact absurd h.symm (hne y x.unsigned)
  · exact ⟨rfl, (List.cons.inj h).2⟩

end Binary64

/-- The text of a finite double determines its bits. -/
theorem text_injective {x y : FiniteDouble} (h : x.value.text = y.value.text) : x = y := by
  have htexts := congrArg String.toList h
  rw [Binary64.toList_text x.finite, Binary64.toList_text y.finite] at htexts
  obtain ⟨hsign, hunsigned⟩ := Binary64.sign_unsigned_injective htexts
  have hx := x.value.roundsTo_unsigned
  have hy := y.value.roundsTo_unsigned
  rw [Binary64.magnitude_eq_ofBits] at hx hy
  rw [← hunsigned] at hy
  -- the text without the sign determines the low bits, and the sign is the high bit
  have hlow := hx.unique hy
  have hhigh : (2 ^ 63 ≤ x.value.bits.toNat) ↔ (2 ^ 63 ≤ y.value.bits.toNat) := by
    simpa [Binary64.isNegative] using hsign
  have hxbound := x.value.bits.toNat_lt
  have hybound := y.value.bits.toNat_lt
  have hbits : x.value.bits.toNat = y.value.bits.toNat := by omega
  obtain ⟨⟨xbits⟩, hxfinite⟩ := x
  obtain ⟨⟨ybits⟩, hyfinite⟩ := y
  obtain rfl : xbits = ybits := UInt64.toNat_inj.1 hbits
  rfl

end GraphQuery.Number
