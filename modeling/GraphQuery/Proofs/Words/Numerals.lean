import GraphQuery.Proofs.Reading.Numeral
import GraphQuery.Proofs.Text.Tokens
import GraphQuery.Proofs.Rendering.Spacing
import GraphQuery.Rendering.Pattern

/-!
# Words of numbers

To a reader of words, a number falls into parts at its point and its minus signs. Each part
begins with a digit, since the mark of an exponent stands behind one, so no part of a number
looks like a name.

Main statement: `DigitLed.head_word`, with `digitLed_text` for doubles and
`Length.digitLed_text` for lengths.
-/

set_option autoImplicit false

namespace GraphQuery

open Text (Token)

/-- Texts whose words begin with digits. -/
inductive DigitLed : List Char → Prop
  | nil : DigitLed []
  | sign {c : Char} {rest : List Char} (hc : isIdentifierPart c = false) (h : DigitLed rest) :
      DigitLed (c :: rest)
  | word {d : Char} {cs rest : List Char} (hd : d.isDigit = true)
      (hcs : ∀ c ∈ cs, isIdentifierPart c = true)
      (hrest : rest.head?.any isIdentifierPart = false) (h : DigitLed rest) :
      DigitLed (d :: cs ++ rest)

namespace DigitLed

/-- The words of such a text are found to begin with digits. -/
theorem head_word {text : List Char} (h : DigitLed text) :
    ∀ chars, .word chars ∈ Token.ofChars text → chars.head?.any Char.isDigit = true := by
  induction h with
  | nil => intro chars hmem; cases hmem
  | sign hc h ih =>
      intro chars hmem
      rw [Token.ofChars_sign hc] at hmem
      rcases List.mem_cons.1 hmem with heq | hrest
      · cases heq
      · exact ih chars hrest
  | @word d cs rest hd hcs hrest h ih =>
      have hcut : Token.ofChars (d :: cs ++ rest) =
          Token.ofChars (d :: cs) ++ Token.ofChars rest := by
        rw [Token.ofChars, List.map_append]
        refine Token.lex_append fun _ => ?_
        cases rest with
        | nil => rfl
        | cons c rest => exact hrest
      have hword : Token.ofChars (d :: cs) = [.word (d :: cs)] :=
        Token.lex_word (List.cons_ne_nil d cs)
          (List.forall_mem_cons.2 ⟨isIdentifierPart_of_isDigit hd, hcs⟩)
      intro chars hmem
      rw [hcut, hword, List.singleton_append] at hmem
      rcases List.mem_cons.1 hmem with heq | hmore
      · cases heq
        exact hd
      · exact ih chars hmore

end DigitLed

namespace Number

theorem AllDigits.isIdentifierPart {ds : List Char} (hd : AllDigits ds) :
    ∀ c ∈ ds, GraphQuery.isIdentifierPart c = true :=
  fun c hc => isIdentifierPart_of_isDigit (hd c hc)

/-- Digits, and what belongs to the same word, before a rest. -/
theorem AllDigits.digitLed_append {ds es rest : List Char} (hd : AllDigits ds) (hne : ds ≠ [])
    (hes : ∀ c ∈ es, GraphQuery.isIdentifierPart c = true)
    (hrest : rest.head?.any GraphQuery.isIdentifierPart = false) (h : DigitLed rest) :
    DigitLed (ds ++ es ++ rest) := by
  cases ds with
  | nil => exact absurd rfl hne
  | cons d ds =>
      obtain ⟨hfirst, hmore⟩ := List.forall_mem_cons.1 hd
      exact .word hfirst (List.forall_mem_append.2 ⟨AllDigits.isIdentifierPart hmore, hes⟩)
        hrest h

theorem AllDigits.digitLed {ds : List Char} (hd : AllDigits ds) (hne : ds ≠ []) :
    DigitLed ds := by
  have happend := hd.digitLed_append hne (List.forall_mem_nil _) rfl .nil
  rwa [List.append_nil, List.append_nil] at happend

/-- Digits before a point and after it. -/
theorem digitLed_point {ds es : List Char} (hd : AllDigits ds) (hne : ds ≠ [])
    (he : DigitLed es) : DigitLed (ds ++ '.' :: es) := by
  have hpoint : GraphQuery.isIdentifierPart '.' = false := by decide
  have hhead : ('.' :: es).head?.any GraphQuery.isIdentifierPart = false := hpoint
  have happend := hd.digitLed_append hne (List.forall_mem_nil _) hhead (.sign hpoint he)
  rwa [List.append_nil] at happend

/-- Integers are led by a digit behind their sign. -/
theorem digitLed_signedDigits (n : Int) : DigitLed (signedDigits n) := by
  cases n with
  | ofNat n => exact (allDigits_digits n).digitLed (digits_ne_nil n)
  | negSucc n => exact .sign (by decide) ((allDigits_digits (n + 1)).digitLed (digits_ne_nil _))

namespace Decimal

variable {d : Decimal}

/-- So is the positional form of a decimal. -/
theorem digitLed_positional (hd : AllDigits d.digits) (hne : d.digits ≠ []) :
    DigitLed d.positional := by
  unfold positional
  dsimp only
  split
  · have hrest := (allDigits_replicate_zero (-d.point).toNat).append hd
    have hrest' : List.replicate (-d.point).toNat '0' ++ d.digits ≠ [] := by
      simpa using fun _ => hne
    exact digitLed_point (allDigits_replicate_zero 1) (by decide) (hrest.digitLed hrest')
  · next hpoint =>
      have hwhole := (hd.take d.point.toNat).append
        (allDigits_replicate_zero (d.point.toNat - d.digits.length))
      have hwhole' : d.digits.take d.point.toNat ++
          List.replicate (d.point.toNat - d.digits.length) '0' ≠ [] := by
        intro hnil
        have hlength := congrArg List.length hnil
        simp only [List.length_append, List.length_take, List.length_replicate,
          List.length_nil] at hlength
        omega
      refine digitLed_point hwhole hwhole' ?_
      split
      · exact (allDigits_replicate_zero 1).digitLed (by decide)
      · next hrest => exact (hd.drop _).digitLed (by simpa using hrest)

/-- The mark of an exponent belongs to the word of the digits before it. -/
theorem digitLed_exponent {ds : List Char} (hd : AllDigits ds) (hne : ds ≠ []) (e : Int) :
    DigitLed (ds ++ 'e' :: (if e < 0 then ['-'] else []) ++ Number.digits e.natAbs) := by
  have hdigits := allDigits_digits e.natAbs
  have hmark : GraphQuery.isIdentifierPart 'e' = true := by decide
  split
  · have hsign : GraphQuery.isIdentifierPart '-' = false := by decide
    have hhead : ('-' :: Number.digits e.natAbs).head?.any GraphQuery.isIdentifierPart = false :=
      hsign
    have hminus := hd.digitLed_append hne (List.forall_mem_singleton.2 hmark) hhead
      (.sign hsign (hdigits.digitLed (digits_ne_nil _)))
    rw [List.append_assoc] at hminus ⊢
    exact hminus
  · have hword := hd.digitLed_append hne
      (List.forall_mem_cons.2 ⟨hmark, hdigits.isIdentifierPart⟩) rfl .nil
    rw [List.append_nil] at hword
    rw [List.append_assoc]
    exact hword

/-- The form with an exponent is led by a digit, too. -/
theorem digitLed_withExponent (hd : AllDigits d.digits) (hne : d.digits ≠ []) :
    DigitLed (d.withExponent false) := by
  unfold withExponent
  dsimp only
  split
  · next first second rest hds =>
      rw [hds] at hd
      have hfirst : first.isDigit = true := hd first List.mem_cons_self
      have hmore : AllDigits (second :: rest) := hd.drop 1
      have hexponent := digitLed_exponent hmore (List.cons_ne_nil _ _) (d.point - 1)
      exact digitLed_point (List.forall_mem_singleton.2 hfirst) (List.cons_ne_nil _ _) hexponent
  · exact digitLed_exponent hd hne (d.point - 1)

theorem digitLed_write (hd : AllDigits d.digits) (hne : d.digits ≠ []) {style : Style}
    (hs : style.plusSign = false) : DigitLed (d.write style) := by
  unfold write
  dsimp only
  split
  · exact digitLed_positional hd hne
  · rw [hs]
    exact digitLed_withExponent hd hne

end Decimal

theorem digitLed_unsigned (x : Binary64) : DigitLed x.unsigned := by
  unfold Binary64.unsigned
  split
  · exact digitLed_point (allDigits_replicate_zero 1) (by decide)
      ((allDigits_replicate_zero 1).digitLed (by decide))
  · next hzero =>
      have hpos := Binary64.mantissa_pos (eq_false_of_ne_true hzero)
      obtain ⟨n, unit, hn, hd⟩ := Magnitude.shortest_eq_ofNat hpos queryStyle.tie
      rw [hd]
      exact Decimal.digitLed_write (Decimal.allDigits_ofNat n unit)
        (Decimal.digits_ofNat_ne_nil hn unit) rfl

/-- The words of a finite double begin with digits. -/
theorem digitLed_text (x : FiniteDouble) : DigitLed x.value.text.toList := by
  rw [Binary64.toList_text x.finite]
  have hunsigned := digitLed_unsigned x.value
  split
  · exact .sign (by decide) hunsigned
  · exact hunsigned

end Number

/-- The words of a length are its bounds. -/
theorem Length.digitLed_text (l : Length) : DigitLed l.text.toList := by
  have hstar : isIdentifierPart '*' = false := by decide
  have hdot : isIdentifierPart '.' = false := by decide
  have hbound (n : Nat) : DigitLed (Number.digits n) :=
    (Number.allDigits_digits n).digitLed (Number.digits_ne_nil n)
  have hopen (n : Nat) {rest : List Char} (h : DigitLed rest) :
      DigitLed (Number.digits n ++ '.' :: '.' :: rest) :=
    Number.digitLed_point (Number.allDigits_digits n) (Number.digits_ne_nil n) (.sign hdot h)
  have htext (n : Nat) : (Number.naturalText n).toList = Number.digits n := String.toList_ofList
  cases l with
  | any => exact .sign hstar .nil
  | exactly n =>
      rw [Length.text, String.toList_append, htext]
      exact .sign hstar (hbound n)
  | atLeast n =>
      rw [Length.text, String.toList_append, String.toList_append, htext]
      exact .sign hstar (hopen n .nil)
  | atMost n =>
      rw [Length.text, String.toList_append, htext]
      exact .sign hstar (.sign hdot (.sign hdot (hbound n)))
  | between low high =>
      rw [Length.text, String.toList_append, String.toList_append, String.toList_append, htext,
        htext, List.append_assoc]
      exact .sign hstar (hopen low (hbound high))

end GraphQuery
