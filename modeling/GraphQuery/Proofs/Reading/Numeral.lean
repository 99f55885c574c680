import GraphQuery.Proofs.Number.ReadBack
import GraphQuery.Syntax.Expr

/-!
# Reading number literals

Integers and doubles share one way of writing: a digit or a minus sign comes first,
and only doubles have a point or an exponent mark. The text of a number literal
therefore determines the literal, its type included.

Main statement: `Literal.ofNumeral?_eq_some`.
-/

set_option autoImplicit false

namespace GraphQuery

namespace Number

/-- Different integers are written differently. -/
theorem signedDigits_injective {n m : Int} (h : signedDigits n = signedDigits m) : n = m := by
  have hne : ∀ (k : Nat) (rest : List Char), digits k ≠ '-' :: rest := by
    intro k rest hk
    exact (allDigits_digits k).ne rfl '-' (hk ▸ List.mem_cons_self) rfl
  cases n with
  | ofNat n =>
      cases m with
      | ofNat m => exact congrArg Int.ofNat (digits_injective h)
      | negSucc m => exact absurd h (hne n (digits (m + 1)))
  | negSucc n =>
      cases m with
      | ofNat m => exact absurd h.symm (hne m (digits (n + 1)))
      | negSucc m =>
          have hdigits := digits_injective (List.cons.inj h).2
          exact congrArg Int.negSucc (Nat.succ.inj hdigits)

/-- Marks that only doubles have. -/
def isFloatMark (c : Char) : Bool := c == '.' || c == 'e'

/-- An integer is written without the marks of a double. -/
theorem not_isFloatMark_of_mem_signedDigits (n : Int) :
    ∀ c ∈ signedDigits n, isFloatMark c = false := by
  have hdigits : ∀ k : Nat, ∀ c ∈ digits k, isFloatMark c = false := by
    intro k c hc
    have hpoint : c ≠ '.' := (allDigits_digits k).ne rfl c hc
    have hexponent : c ≠ 'e' := (allDigits_digits k).ne rfl c hc
    simp [isFloatMark, hpoint, hexponent]
  cases n with
  | ofNat n => exact hdigits n
  | negSucc n =>
      intro c hc
      rcases List.mem_cons.1 hc with rfl | h
      · rfl
      · exact hdigits (n + 1) c h

/-- A written decimal has a point or an exponent mark. -/
theorem Decimal.exists_isFloatMark_write (d : Decimal) (style : Style) :
    ∃ c ∈ d.write style, isFloatMark c = true := by
  unfold write positional withExponent
  dsimp only
  split
  · refine ⟨'.', ?_, rfl⟩
    split <;> simp
  · exact ⟨'e', by simp, rfl⟩

/-- A double is written with a point or an exponent. -/
theorem Binary64.exists_isFloatMark_unsigned (x : Binary64) :
    ∃ c ∈ x.unsigned, isFloatMark c = true := by
  unfold unsigned
  split
  · exact ⟨'.', by simp, rfl⟩
  · exact Decimal.exists_isFloatMark_write _ queryStyle

/-- No integer is written like a double. -/
theorem signedDigits_ne_text (n : Int) (x : FiniteDouble) :
    signedDigits n ≠ x.value.text.toList := by
  intro h
  -- the double has a mark that the integer lacks
  obtain ⟨c, hc, hmark⟩ := x.value.exists_isFloatMark_unsigned
  have hmem : c ∈ signedDigits n := by
    rw [h, Binary64.toList_text x.finite]
    exact List.mem_append_right _ hc
  rw [not_isFloatMark_of_mem_signedDigits n c hmem] at hmark
  cases hmark

theorem isNumeralStart_of_isDigit {s : List Char} (h : s.head?.any Char.isDigit = true) :
    s.head?.any isNumeralStart = true := by
  cases s with
  | nil => cases h
  | cons c rest =>
      have hdigit : c.isDigit = true := h
      show (c.isDigit || c == '-') = true
      rw [hdigit, Bool.true_or]

/-- An integer begins with a digit or a minus sign. -/
theorem isNumeralStart_signedDigits (n : Int) :
    (signedDigits n).head?.any isNumeralStart = true := by
  cases n with
  | ofNat n =>
      exact isNumeralStart_of_isDigit ((allDigits_digits n).head_isDigit (digits_ne_nil n))
  | negSucc n => rfl

/-- So does a double. -/
theorem isNumeralStart_text (x : FiniteDouble) :
    x.value.text.toList.head?.any isNumeralStart = true := by
  rw [Binary64.toList_text x.finite]
  cases x.value.isNegative with
  | true => rfl
  | false => exact isNumeralStart_of_isDigit x.value.head_unsigned

end Number

namespace Literal

/-- The text of a number literal. -/
def numeral? : Literal → Option (List Char)
  | .int n => some (Number.signedDigits n)
  | .float x => some x.value.text.toList
  | _ => none

/-- Different literals are not written as the same number. -/
theorem numeral?_injective {a b : Literal} {s : List Char} (ha : a.numeral? = some s)
    (hb : b.numeral? = some s) : a = b := by
  cases a with
  | int n =>
      obtain rfl := Option.some.inj ha
      cases b with
      | int m => exact congrArg int (Number.signedDigits_injective (Option.some.inj hb).symm)
      | float y => exact absurd (Option.some.inj hb).symm (Number.signedDigits_ne_text n y)
      | null | bool _ | string _ => cases hb
  | float x =>
      obtain rfl := Option.some.inj ha
      cases b with
      | int m => exact absurd (Option.some.inj hb) (Number.signedDigits_ne_text m x)
      | float y =>
          have htext := String.toList_inj.1 (Option.some.inj hb)
          exact congrArg float (Number.text_injective htext).symm
      | null | bool _ | string _ => cases hb
  | null | bool _ | string _ => cases ha

/-- What a number literal is written as is a number. -/
theorem isNumeral_of_numeral? {a : Literal} {s : List Char} (h : a.numeral? = some s) :
    Number.IsNumeral s ∧ s.head?.any Number.isNumeralStart = true := by
  cases a with
  | int n =>
      obtain rfl := Option.some.inj h
      exact ⟨Number.isNumeral_signedDigits n, Number.isNumeralStart_signedDigits n⟩
  | float x =>
      obtain rfl := Option.some.inj h
      exact ⟨Number.isNumeral_text x, Number.isNumeralStart_text x⟩
  | null | bool _ | string _ => cases h

open Classical in
/-- The number literal with the given text, if there is one. -/
noncomputable def ofNumeral? (s : List Char) : Option Literal :=
  if h : ∃ a : Literal, a.numeral? = some s then some h.choose else none

/-- A number literal is recovered from its text. -/
theorem ofNumeral?_eq_some {a : Literal} {s : List Char} (h : a.numeral? = some s) :
    ofNumeral? s = some a := by
  have hexists : ∃ b : Literal, b.numeral? = some s := ⟨a, h⟩
  rw [ofNumeral?, dif_pos hexists, numeral?_injective hexists.choose_spec h]

end Literal

end GraphQuery
