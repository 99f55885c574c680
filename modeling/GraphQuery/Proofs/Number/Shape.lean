import GraphQuery.Number.Style

/-!
# The shape of numbers

The text of a number consists of digits, exponent marks, minus signs and points
(`isNumeralPart`). It begins with a digit or a minus sign, and behind each point
stands a digit. By this shape a reader of query text finds the end of a number:
what follows a number there never goes on in this way.

Main statements: `isNumeral_signedDigits` for integers and `isNumeral_write` for
doubles.
-/

set_option autoImplicit false

namespace GraphQuery.Number

/-- Lists of digits. -/
def AllDigits (ds : List Char) : Prop := ∀ c ∈ ds, c.isDigit = true

/-- Characters of numbers. -/
def isNumeralPart (c : Char) : Bool := c.isDigit || c == 'e' || c == '-' || c == '.'

/-- Characters a number may begin with. -/
def isNumeralStart (c : Char) : Bool := c.isDigit || c == '-'

/-- Texts of characters of numbers in which a digit stands behind each point. -/
def IsNumeral : List Char → Prop
  | [] => True
  | c :: rest =>
      isNumeralPart c = true ∧ (c = '.' → rest.head?.any Char.isDigit = true) ∧ IsNumeral rest

/-! ## Lists of digits -/

theorem allDigits_digits (n : Nat) : AllDigits (digits n) := by
  intro c hc
  exact Nat.isDigit_of_mem_toDigits (by decide) (by decide) hc

theorem digits_ne_nil (n : Nat) : digits n ≠ [] := by
  unfold digits
  exact Nat.toDigits_ne_nil

/-- Different numbers have different digits. -/
theorem digits_injective {n m : Nat} (h : digits n = digits m) : n = m := by
  have hvalue := congrArg (Nat.ofDigitChars 10 · 0) h
  simpa [digits] using hvalue

theorem allDigits_replicate_zero (n : Nat) : AllDigits (List.replicate n '0') := by
  intro c hc
  rw [List.eq_of_mem_replicate hc]
  rfl

namespace AllDigits

variable {ds es : List Char}

theorem append (hd : AllDigits ds) (he : AllDigits es) : AllDigits (ds ++ es) := by
  intro c hc
  rcases List.mem_append.1 hc with h | h
  · exact hd c h
  · exact he c h

theorem take (hd : AllDigits ds) (n : Nat) : AllDigits (ds.take n) :=
  fun c hc => hd c (List.mem_of_mem_take hc)

theorem drop (hd : AllDigits ds) (n : Nat) : AllDigits (ds.drop n) :=
  fun c hc => hd c (List.mem_of_mem_drop hc)

theorem ne (hd : AllDigits ds) {mark : Char} (hm : mark.isDigit = false) :
    ∀ c ∈ ds, c ≠ mark := by
  intro c hc h
  have := hd c hc
  rw [h, hm] at this
  cases this

/-- A list of digits begins with one unless it is empty. -/
theorem head_isDigit (hd : AllDigits ds) (hne : ds ≠ []) :
    ds.head?.any Char.isDigit = true := by
  cases ds with
  | nil => exact absurd rfl hne
  | cons c rest => exact hd c List.mem_cons_self

end AllDigits

/-! ## Numerals -/

theorem isNumeralPart_of_isDigit {c : Char} (h : c.isDigit = true) :
    isNumeralPart c = true := by
  simp [isNumeralPart, h]

/-- Texts of number characters stay such when they are joined. -/
theorem IsNumeral.append {s t : List Char} (hs : IsNumeral s) (ht : IsNumeral t) :
    IsNumeral (s ++ t) := by
  induction s with
  | nil => exact ht
  | cons c rest ih =>
      refine ⟨hs.1, fun hc => ?_, ih hs.2.2⟩
      have hhead := hs.2.1 hc
      cases rest with
      | nil => simp at hhead
      | cons d rest => exact hhead

/-- All characters of a number are characters of numbers. -/
theorem IsNumeral.part {s : List Char} (hs : IsNumeral s) :
    ∀ c ∈ s, isNumeralPart c = true := by
  induction s with
  | nil => intro c hc; cases hc
  | cons d rest ih =>
      intro c hc
      rcases List.mem_cons.1 hc with rfl | h
      · exact hs.1
      · exact ih hs.2.2 c h

/-- Digits are a number. -/
theorem AllDigits.isNumeral {ds : List Char} (hd : AllDigits ds) : IsNumeral ds := by
  induction ds with
  | nil => trivial
  | cons c rest ih =>
      refine ⟨isNumeralPart_of_isDigit (hd c List.mem_cons_self), fun hc => ?_,
        ih fun d h => hd d (List.mem_cons_of_mem c h)⟩
      exact absurd hc (hd.ne rfl c List.mem_cons_self)

/-- A mark other than the point may stand before a number. -/
theorem isNumeral_mark {mark : Char} (hpart : isNumeralPart mark = true) (hm : mark ≠ '.')
    {s : List Char} (hs : IsNumeral s) : IsNumeral (mark :: s) :=
  ⟨hpart, fun h => absurd h hm, hs⟩

/-- A point may stand before digits. -/
theorem isNumeral_point {ds : List Char} (hd : AllDigits ds) (hne : ds ≠ []) :
    IsNumeral ('.' :: ds) :=
  ⟨rfl, fun _ => hd.head_isDigit hne, hd.isNumeral⟩

theorem isNumeral_signedDigits (n : Int) : IsNumeral (signedDigits n) := by
  cases n with
  | ofNat n => exact (allDigits_digits n).isNumeral
  | negSucc n => exact isNumeral_mark rfl (by decide) (allDigits_digits (n + 1)).isNumeral

/-! ## Written decimals -/

namespace Decimal

theorem allDigits_ofNat (n : Nat) (unit : Int) : AllDigits (Decimal.ofNat n unit).digits := by
  intro c hc
  have hmem : c ∈ (Number.digits n).reverse :=
    (List.dropWhile_sublist _).subset (List.mem_reverse.1 hc)
  exact allDigits_digits n c (List.mem_reverse.1 hmem)

variable {d : Decimal}

/-- The positional form of a decimal is a number. -/
theorem isNumeral_positional (hd : AllDigits d.digits) (hne : d.digits ≠ []) :
    IsNumeral d.positional := by
  unfold positional
  dsimp only
  split
  · have hrest := (allDigits_replicate_zero (-d.point).toNat).append hd
    have hrest' : List.replicate (-d.point).toNat '0' ++ d.digits ≠ [] := by
      simpa using fun _ => hne
    exact isNumeral_mark rfl (by decide) (isNumeral_point hrest hrest')
  · have hwhole := (hd.take d.point.toNat).append
      (allDigits_replicate_zero (d.point.toNat - d.digits.length))
    refine hwhole.isNumeral.append ?_
    split
    · exact isNumeral_point (allDigits_replicate_zero 1) (by decide)
    · next hrest => exact isNumeral_point (hd.drop _) (by simpa using hrest)

/-- The form with an exponent is a number. -/
theorem isNumeral_withExponent (hd : AllDigits d.digits) : IsNumeral (d.withExponent false) := by
  unfold withExponent
  dsimp only
  have hexponent := (allDigits_digits (d.point - 1).natAbs).isNumeral
  refine IsNumeral.append (IsNumeral.append ?_ ?_) hexponent
  · split
    · next first second rest hds =>
        rw [hds] at hd
        have hsecond : AllDigits (second :: rest) := hd.drop 1
        have hfirst := isNumeralPart_of_isDigit (hd first List.mem_cons_self)
        exact isNumeral_mark hfirst (hd.ne rfl first List.mem_cons_self)
          (isNumeral_point hsecond (by simp))
    · exact hd.isNumeral
  · refine isNumeral_mark rfl (by decide) ?_
    split
    · exact isNumeral_mark rfl (by decide) trivial
    · exact trivial

/-- Both forms of a decimal that has digits are numerals, unless an exponent is to
carry a plus sign. -/
theorem isNumeral_write (hd : AllDigits d.digits) (hne : d.digits ≠ []) {style : Style}
    (hs : style.plusSign = false) : IsNumeral (d.write style) := by
  unfold write
  dsimp only
  split
  · exact isNumeral_positional hd hne
  · rw [hs]
    exact isNumeral_withExponent hd

/-- A written decimal begins with a digit. -/
theorem head_write (hd : AllDigits d.digits) (hne : d.digits ≠ []) (style : Style) :
    (d.write style).head?.any Char.isDigit = true := by
  cases hds : d.digits with
  | nil => exact absurd hds hne
  | cons first rest =>
      have hfirst : first.isDigit = true := hd first (hds ▸ List.mem_cons_self)
      unfold write positional withExponent
      dsimp only
      rw [hds]
      split
      · split
        · rfl
        · next hpoint =>
            obtain ⟨whole, hwhole⟩ : ∃ n, d.point.toNat = n + 1 := ⟨d.point.toNat - 1, by omega⟩
            rw [hwhole]
            exact hfirst
      · cases rest with
        | nil => exact hfirst
        | cons second rest => exact hfirst

end Decimal

end GraphQuery.Number
