import GraphQuery.Proofs.Number.Shortest
import Mathlib.Algebra.Order.Field.Rat
import Mathlib.Tactic.FieldSimp
import Mathlib.Tactic.Ring

/-!
# Reading decimals

A decimal is a number, whichever way it is written. `textValue` reads the number
off a text: the digits before and behind the point make up one natural number, and
the exponent and the place of the point give the power of ten. Both forms of a
decimal have its value (`Decimal.textValue_write`), so texts that agree denote the
same number.
-/

set_option autoImplicit false

namespace GraphQuery.Number

/-- The natural number of a list of digits. -/
def digitsValue (ds : List Char) : Nat := Nat.ofDigitChars 10 ds 0

/-- The integer of a list of digits behind an optional sign. -/
def signedValue : List Char → Int
  | '-' :: ds => -digitsValue ds
  | '+' :: ds => digitsValue ds
  | ds => digitsValue ds

/-- The number of a list of digits with at most one point among them. -/
def mantissaValue (text : List Char) : ℚ :=
  let whole := text.takeWhile (· ≠ '.')
  let fraction := (text.dropWhile (· ≠ '.')).drop 1
  digitsValue (whole ++ fraction) * 10 ^ (-(fraction.length : Int))

/-- The number that a text without a sign denotes. -/
def textValue (text : List Char) : ℚ :=
  mantissaValue (text.takeWhile (· ≠ 'e')) *
    10 ^ signedValue ((text.dropWhile (· ≠ 'e')).drop 1)

/-- The number that a decimal stands for. -/
def Decimal.value (d : Decimal) : ℚ :=
  digitsValue d.digits * 10 ^ (d.point - d.digits.length)

/-! ## Lists of digits -/

/-- The digits of a number have its value. -/
theorem digitsValue_digits (n : Nat) : digitsValue (digits n) = n :=
  Nat.ofDigitChars_ten_toDigits

/-- Digits that stand before others count for as many powers of ten. -/
theorem digitsValue_append (ds es : List Char) :
    digitsValue (ds ++ es) = 10 ^ es.length * digitsValue ds + digitsValue es := by
  unfold digitsValue
  rw [Nat.ofDigitChars_append, Nat.ofDigitChars_eq_ofDigitChars_zero]

theorem digitsValue_replicate_zero (n : Nat) : digitsValue (List.replicate n '0') = 0 := by
  simp [digitsValue]

/-- Leading zeros do not count. -/
theorem digitsValue_zeros_append (n : Nat) (ds : List Char) :
    digitsValue (List.replicate n '0' ++ ds) = digitsValue ds := by
  rw [digitsValue_append, digitsValue_replicate_zero, Nat.mul_zero, Nat.zero_add]

/-- Each trailing zero multiplies by ten. -/
theorem digitsValue_append_zeros (ds : List Char) (n : Nat) :
    digitsValue (ds ++ List.replicate n '0') = 10 ^ n * digitsValue ds := by
  rw [digitsValue_append, digitsValue_replicate_zero, List.length_replicate, Nat.add_zero]

/-! ## Values of decimals -/

/-- Leaving off zeros at the end does not change the number. -/
theorem Decimal.value_ofNat (n : Nat) (unit : Int) :
    (Decimal.ofNat n unit).value = n * 10 ^ unit := by
  obtain ⟨k, hk⟩ := Decimal.exists_trailing_zeros (Number.digits n)
  have hvalue : n = 10 ^ k * digitsValue (Decimal.ofNat n unit).digits := by
    rw [← digitsValue_append_zeros, Decimal.ofNat, ← hk, digitsValue_digits]
  have hlength : (Number.digits n).length = (Decimal.ofNat n unit).digits.length + k := by
    conv_lhs => rw [hk]
    rw [List.length_append, List.length_replicate]
    rfl
  have hpoint : (Decimal.ofNat n unit).point - (Decimal.ofNat n unit).digits.length =
      k + unit := by
    show unit + (Number.digits n).length - _ = _
    omega
  rw [Decimal.value, hpoint, zpow_add₀ (by norm_num), zpow_natCast]
  -- the zeros that were left off are the power of ten by which the unit grew
  conv_rhs => rw [hvalue]
  push_cast
  ring

/-! ## Values of written forms -/

section Marks

variable {mark : Char} {before : List Char}

/-- What stands before the first mark. -/
theorem takeWhile_ne_mark (h : ∀ c ∈ before, c ≠ mark) (behind : List Char) :
    (before ++ mark :: behind).takeWhile (· ≠ mark) = before := by
  rw [List.takeWhile_append_of_pos (by simpa using h)]
  simp

/-- What stands behind it. -/
theorem dropWhile_ne_mark (h : ∀ c ∈ before, c ≠ mark) (behind : List Char) :
    (before ++ mark :: behind).dropWhile (· ≠ mark) = mark :: behind := by
  rw [List.dropWhile_append_of_pos (by simpa using h)]
  simp

theorem takeWhile_ne_absent (h : ∀ c ∈ before, c ≠ mark) :
    before.takeWhile (· ≠ mark) = before := by
  rw [List.takeWhile_eq_self_iff]
  simpa using h

theorem dropWhile_ne_absent (h : ∀ c ∈ before, c ≠ mark) :
    before.dropWhile (· ≠ mark) = [] := by
  rw [List.dropWhile_eq_nil_iff]
  simpa using h

end Marks

/-- Digits with a point among them are the number without it, divided by a power of ten. -/
theorem mantissaValue_point {whole : List Char} (hw : AllDigits whole) (fraction : List Char) :
    mantissaValue (whole ++ '.' :: fraction) =
      digitsValue (whole ++ fraction) * 10 ^ (-(fraction.length : Int)) := by
  have hne := hw.ne (show '.'.isDigit = false from rfl)
  rw [mantissaValue, takeWhile_ne_mark hne, dropWhile_ne_mark hne]
  rfl

theorem mantissaValue_allDigits {ds : List Char} (hd : AllDigits ds) :
    mantissaValue ds = digitsValue ds := by
  have hne := hd.ne (show '.'.isDigit = false from rfl)
  rw [mantissaValue, takeWhile_ne_absent hne, dropWhile_ne_absent hne]
  simp

/-- A text without an exponent has the value of its mantissa. -/
theorem textValue_mantissa {mantissa : List Char} (h : ∀ c ∈ mantissa, c ≠ 'e') :
    textValue mantissa = mantissaValue mantissa := by
  rw [textValue, takeWhile_ne_absent h, dropWhile_ne_absent h]
  simp [signedValue, digitsValue]

/-- An exponent multiplies the mantissa by a power of ten. -/
theorem textValue_exponent {mantissa : List Char} (h : ∀ c ∈ mantissa, c ≠ 'e')
    (exponent : List Char) :
    textValue (mantissa ++ 'e' :: exponent) =
      mantissaValue mantissa * 10 ^ signedValue exponent := by
  rw [textValue, takeWhile_ne_mark h, dropWhile_ne_mark h]
  rfl

theorem ne_exponentMark_of_point {whole fraction : List Char} (hw : AllDigits whole)
    (hf : AllDigits fraction) : ∀ c ∈ whole ++ '.' :: fraction, c ≠ 'e' := by
  intro c hc
  rcases List.mem_append.1 hc with h | h
  · exact hw.ne rfl c h
  · rcases List.mem_cons.1 h with rfl | h
    · decide
    · exact hf.ne rfl c h

/-- The value of a text with a point and no exponent. -/
theorem textValue_point {whole fraction : List Char} (hw : AllDigits whole)
    (hf : AllDigits fraction) :
    textValue (whole ++ '.' :: fraction) =
      digitsValue (whole ++ fraction) * 10 ^ (-(fraction.length : Int)) := by
  rw [textValue_mantissa (ne_exponentMark_of_point hw hf), mantissaValue_point hw]

theorem signedValue_allDigits {ds : List Char} (hd : AllDigits ds) :
    signedValue ds = digitsValue ds := by
  cases ds with
  | nil => rfl
  | cons c rest =>
      have hminus := hd.ne (show '-'.isDigit = false from rfl) c List.mem_cons_self
      have hplus := hd.ne (show '+'.isDigit = false from rfl) c List.mem_cons_self
      unfold signedValue
      split
      · next h => exact absurd (List.cons.inj h).1 hminus
      · next h => exact absurd (List.cons.inj h).1 hplus
      · rfl

namespace Decimal

variable {d : Decimal}

/-- The positional form of a decimal has its value. -/
theorem textValue_positional (hd : AllDigits d.digits) : textValue d.positional = d.value := by
  unfold positional
  dsimp only
  split
  · next hpoint =>
      -- all digits stand behind the point, after a zero for each place it moved to the left
      have hrest := (allDigits_replicate_zero (-d.point).toNat).append hd
      have hform : ['0', '.'] ++ List.replicate (-d.point).toNat '0' ++ d.digits =
          List.replicate 1 '0' ++ '.' :: (List.replicate (-d.point).toNat '0' ++ d.digits) := by
        simp
      rw [hform, textValue_point (allDigits_replicate_zero 1) hrest, digitsValue_zeros_append,
        digitsValue_zeros_append, List.length_append, List.length_replicate, Decimal.value]
      congr 2
      omega
  · next hpoint =>
      have hwhole := (hd.take d.point.toNat).append
        (allDigits_replicate_zero (d.point.toNat - d.digits.length))
      rw [Decimal.value]
      split
      · next hrest =>
          -- all digits stand before the point, and zeros fill the places up to it
          have hlength : d.digits.length ≤ d.point.toNat := by
            simpa using List.isEmpty_iff.1 hrest
          have hzero : AllDigits ['0'] := allDigits_replicate_zero 1
          have hzeros : List.replicate (d.point.toNat - d.digits.length) '0' ++ ['0'] =
              List.replicate (d.point.toNat - d.digits.length + 1) '0' :=
            List.replicate_succ'.symm
          have hpower : (10 : ℚ) ^ (d.point - d.digits.length) =
              10 ^ (d.point.toNat - d.digits.length) := by
            rw [← zpow_natCast]
            congr 1
            omega
          rw [textValue_point hwhole hzero, List.append_assoc, List.take_of_length_le hlength,
            hzeros, digitsValue_append_zeros, hpower, List.length_singleton, zpow_neg]
          push_cast
          field_simp
          ring
      · next hrest =>
          -- the point stands among the digits, which are all there
          have hlength : d.point.toNat < d.digits.length := by
            simpa [List.isEmpty_iff] using hrest
          have hmissing : d.point.toNat - d.digits.length = 0 := by omega
          rw [textValue_point hwhole (hd.drop _), hmissing, List.replicate_zero, List.append_nil,
            List.take_append_drop, List.length_drop]
          congr 2
          omega

/-- The digits of a decimal with the point behind the first one, if others follow. -/
def mantissa : List Char → List Char
  | first :: second :: rest => first :: '.' :: second :: rest
  | short => short

/-- A mantissa has one digit before its point. -/
theorem mantissaValue_mantissa {ds : List Char} (hd : AllDigits ds) :
    mantissaValue (mantissa ds) = digitsValue ds * 10 ^ (1 - (ds.length : Int)) := by
  match ds, hd with
  | [], _ => simp [mantissa, mantissaValue, digitsValue]
  | [c], hd =>
      rw [mantissa, mantissaValue_allDigits hd]
      · simp
      · rintro first second rest ⟨⟩
  | first :: second :: rest, hd =>
      have hfirst : AllDigits [first] := hd.take 1
      have hvalue := mantissaValue_point hfirst (second :: rest)
      have hlength : 1 - ((first :: second :: rest).length : Int) =
          -((second :: rest).length : Int) := by
        simp only [List.length_cons]
        omega
      rw [hlength]
      exact hvalue

theorem ne_exponentMark_mantissa {ds : List Char} (hd : AllDigits ds) :
    ∀ c ∈ mantissa ds, c ≠ 'e' := by
  match ds, hd with
  | [], _ => intro c hc; cases hc
  | [c], hd => exact hd.ne rfl
  | first :: second :: rest, hd =>
      have hfirst : AllDigits [first] := hd.take 1
      have hrest : AllDigits (second :: rest) := hd.drop 1
      exact ne_exponentMark_of_point hfirst hrest

/-- The exponent of a text is read back with its sign. -/
theorem signedValue_exponent (e : Int) (plusSign : Bool) :
    signedValue ((if e < 0 then ['-'] else if plusSign then ['+'] else []) ++
      Number.digits e.natAbs) = e := by
  have hvalue := digitsValue_digits e.natAbs
  split
  · show -(digitsValue (Number.digits e.natAbs) : Int) = e
    omega
  · split
    · show (digitsValue (Number.digits e.natAbs) : Int) = e
      omega
    · rw [List.nil_append, signedValue_allDigits (allDigits_digits _)]
      omega

/-- The form with an exponent has the value of the decimal. -/
theorem textValue_withExponent (hd : AllDigits d.digits) (plusSign : Bool) :
    textValue (d.withExponent plusSign) = d.value := by
  have hform : d.withExponent plusSign = mantissa d.digits ++ 'e' ::
      ((if d.point - 1 < 0 then ['-'] else if plusSign then ['+'] else []) ++
        Number.digits (d.point - 1).natAbs) := by
    unfold withExponent mantissa
    rw [List.append_assoc]
    rfl
  have hpower : d.point - d.digits.length = 1 - d.digits.length + (d.point - 1) := by omega
  rw [hform, textValue_exponent (ne_exponentMark_mantissa hd), mantissaValue_mantissa hd,
    signedValue_exponent, Decimal.value, hpower, zpow_add₀ (by norm_num), mul_assoc]

/-- Both written forms of a decimal have its value. -/
theorem textValue_write (hd : AllDigits d.digits) (style : Style) :
    textValue (d.write style) = d.value := by
  unfold write
  simp only
  split
  · exact textValue_positional hd
  · exact textValue_withExponent hd style.plusSign

end Decimal

end GraphQuery.Number
