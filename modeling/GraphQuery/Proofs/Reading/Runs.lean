import GraphQuery.Proofs.Reading.Reader
import GraphQuery.Proofs.Rendering.Tokens

/-!
# Runs of the reader

What the reader does with the parts of an expression that are no expressions: with
the text of a number, with a word between two operands, and with a mark behind an
expression. The lemmas leave open what tokens follow. A number is the only part whose
end shows in the next token.

Main statements: `read_numeral` with `read_numeral_end`, and `read_resume`.
-/

set_option autoImplicit false

namespace GraphQuery

open Number (IsNumeral)
open Text (Token)

namespace Reader

theorem read_cons {s next : State} {t : Token} (h : step s t = some next) (ts : List Token) :
    read s (t :: ts) = read next ts := by
  rw [read, h, Option.bind_some]

/-! ## Numbers -/

theorem isIdentifierPart_of_isNumeralPart {c : Char} (h : Number.isNumeralPart c = true)
    (hminus : c ≠ '-') (hpoint : c ≠ '.') : isIdentifierPart c = true := by
  simp only [Number.isNumeralPart, Bool.or_eq_true, beq_iff_eq, hminus, hpoint, or_false] at h
  rcases h with h | rfl
  · exact isIdentifierPart_of_isDigit h
  · decide

/-- Inside a number the reader collects the characters of its text. -/
theorem read_numeral_append (fs : List Frame) (ts : List Token) {s : List Char} (hs : IsNumeral s) :
    ∀ start : List Char, read ⟨fs, .numeral start⟩ (Token.ofChars s ++ ts) =
      read ⟨fs, .numeral (start ++ s)⟩ ts := by
  induction s with
  | nil =>
      intro start
      rw [List.append_nil]
      rfl
  | cons c rest ih =>
      intro start
      have hrest := ih hs.2.2 (start ++ [c])
      rw [List.append_assoc, List.singleton_append] at hrest
      -- the text so far and the character that is read next stay together in `hrest`
      by_cases hminus : c = '-'
      · subst hminus
        rw [Token.ofChars_sign (by decide)]
        exact hrest
      · by_cases hpoint : c = '.'
        · subst hpoint
          cases rest with
          | nil => cases hs.2.1 rfl
          | cons d rest =>
              obtain ⟨w, us, hword, -⟩ :=
                Token.ofChars_part (isIdentifierPart_of_isDigit (hs.2.1 rfl)) rest
              rw [hword] at hrest
              rw [Token.ofChars_sign (by decide), hword]
              refine Eq.trans ?_ hrest
              show read ⟨fs, .numeral (start ++ '.' :: d :: w)⟩ (us ++ ts) =
                read ⟨fs, .numeral (start ++ ['.'] ++ (d :: w))⟩ (us ++ ts)
              rw [List.append_assoc, List.singleton_append]
        · have hpart := isIdentifierPart_of_isNumeralPart hs.1 hminus hpoint
          obtain ⟨w, us, hword, hw⟩ := Token.ofChars_part hpart rest
          rw [hword]
          refine Eq.trans ?_ hrest
          show read ⟨fs, .numeral (start ++ c :: w)⟩ (us ++ ts) = _
          rcases hw with ⟨rfl, hus⟩ | hus
          · rw [hus]
          · rw [hus]
            show _ = read ⟨fs, .numeral (start ++ [c] ++ w)⟩ (us ++ ts)
            rw [List.append_assoc, List.singleton_append]

/-- A number is read from its text. -/
theorem read_numeral {s : List Char} (hs : IsNumeral s)
    (hstart : s.head?.any Number.isNumeralStart = true) (fs : List Frame) (ts : List Token) :
    read ⟨fs, .expecting⟩ (Token.ofChars s ++ ts) = read ⟨fs, .numeral s⟩ ts := by
  cases s with
  | nil => cases hstart
  | cons c rest =>
      have hrest := read_numeral_append fs ts hs.2.2 [c]
      rw [List.singleton_append] at hrest
      refine Eq.trans ?_ hrest
      have hc : (c.isDigit || c == '-') = true := hstart
      rcases Bool.or_eq_true_iff.1 hc with hdigit | hminus
      · obtain ⟨w, us, hword, hw⟩ := Token.ofChars_part (isIdentifierPart_of_isDigit hdigit) rest
        have hstep : step ⟨fs, .expecting⟩ (.word (c :: w)) = some ⟨fs, .numeral (c :: w)⟩ :=
          if_pos hdigit
        rw [hword, List.cons_append, read_cons hstep]
        rcases hw with ⟨rfl, hus⟩ | hus
        · rw [hus]
        · rw [hus]
          rfl
      · obtain rfl := beq_iff_eq.1 hminus
        rw [Token.ofChars_sign (by decide)]
        rfl

/-- A number ends before the tokens. -/
def EndsNumeral : List Token → Prop
  | .word _ :: _ => False
  | .sign '-' :: _ => False
  | .sign '.' :: .word _ :: _ => False
  | _ => True

/-- Behind a number the reader goes on as behind any expression. -/
theorem read_numeral_end {a : Literal} {s : List Char} (ha : a.numeral? = some s)
    (fs : List Frame) {ts : List Token} (hts : EndsNumeral ts) :
    read ⟨fs, .numeral s⟩ ts = read ⟨fs, .complete (.literal a)⟩ ts := by
  have hvalue := Literal.ofNumeral?_eq_some ha
  have hbind : ∀ k : Literal → Option State, (Literal.ofNumeral? s).bind k = k a := by
    intro k
    rw [hvalue, Option.bind_some]
  cases ts with
  | nil => rw [read, read, finish, finish, hvalue, Option.bind_some]
  | cons t ts =>
      cases t with
      | word w => exact hts.elim
      | quoted q content =>
          have := hbind fun value => stepComplete fs (.literal value) (.quoted q content)
          exact congrArg (·.bind fun s => read s ts) this
      | sign c =>
          by_cases hminus : c = '-'
          · subst hminus
            exact hts.elim
          · by_cases hpoint : c = '.'
            · subst hpoint
              show read ⟨fs, .point s⟩ ts = read ⟨fs, .dot (.literal a)⟩ ts
              cases ts with
              | nil => rfl
              | cons t ts =>
                  cases t with
                  | word w => exact hts.elim
                  | sign c | quoted q content =>
                      exact congrArg (·.bind fun s => read s ts)
                        (hbind fun value => stepDot fs (.literal value) _)
            · have hstep : stepNumeral fs s (.sign c) = stepComplete fs (.literal a) (.sign c) := by
                refine Eq.trans ?_ (hbind fun value => stepComplete fs (.literal value) (.sign c))
                rw [stepNumeral]
                · simp
                · simp [hminus]
                · simp [hpoint]
              exact congrArg (·.bind fun s => read s ts) hstep

/-! ## Marks -/

/-- The state behind an expression that stands in no parentheses. Its outermost
operator waits for a mark. -/
def after (fs : List Frame) : Expr → State
  | .unary .not e => ⟨.negation :: fs, .complete e⟩
  | .binary op left right => ⟨.rightOf op left :: fs, .complete right⟩
  | e => ⟨fs, .complete e⟩

/-- An operand that is no operator is complete and leaves the frames around it waiting. -/
theorem after_of_not_isOperator {e : Expr} (he : e.isOperator = false) (fs : List Frame) :
    after fs e = ⟨fs, .complete e⟩ := by
  cases e with
  | unary _ _ | binary _ _ _ => cases he
  | literal _ | name _ | placeholder _ | call _ _ _ | map _ | list _ | property _ _ | index _ _
  | sliceFrom _ _ | sliceTo _ _ | slice _ _ _ | case _ _ _ _ => rfl

/-- Frames in which an expression may stand without parentheses. -/
def Grounded (fs : List Frame) : Prop := fs.head?.any Frame.isOperator = false

theorem settle_of_grounded {fs : List Frame} (hf : Grounded fs) (e : Expr) :
    settle fs e = (fs, e) := by
  cases fs with
  | nil => rfl
  | cons f fs =>
      cases f with
      | negation | rightOf _ _ => cases hf
      | group | sequence _ _ | entry _ _ | index _ | sliceTo _ | slice _ _ | condition _
      | result _ _ | fallback _ => rfl

/-- Behind an expression the reader has a complete operand, which settles to the expression. -/
theorem settle_after (fs : List Frame) (hf : Grounded fs) (e : Expr) :
    ∃ gs d, after fs e = ⟨gs, .complete d⟩ ∧ settle gs d = (fs, e) := by
  cases hop : e.isOperator with
  | false => exact ⟨fs, e, after_of_not_isOperator hop fs, settle_of_grounded hf e⟩
  | true =>
      cases e with
      | binary op left right => exact ⟨.rightOf op left :: fs, right, rfl, rfl⟩
      | unary op operand =>
          cases op with
          | not => exact ⟨.negation :: fs, operand, rfl, rfl⟩
          | isNull | isNotNull => exact ⟨fs, _, rfl, settle_of_grounded hf _⟩
      | _ => cases hop

/-- A mark ends an expression, and the frame around it goes on. -/
theorem read_resume {f : Frame} (hf : f.isOperator = false) (fs : List Frame) (e : Expr) (m : Mark)
    (ts : List Token) :
    read (after (f :: fs) e) (m.tokens ++ ts) =
      (f.resume e m).bind fun (inner, focus) => read ⟨inner ++ fs, focus⟩ ts := by
  obtain ⟨gs, d, hafter, hsettle⟩ := settle_after (f :: fs) hf e
  have hresume : (resume gs d m).bind (fun s => read s ts) =
      (f.resume e m).bind fun (inner, focus) => read ⟨inner ++ fs, focus⟩ ts := by
    rw [resume, hsettle]
    exact Option.bind_map
  rw [hafter, ← hresume]
  -- each mark is found at its last token
  cases m <;> rfl

/-- A number ends before every mark. -/
theorem endsNumeral_mark (m : Mark) (ts : List Token) : EndsNumeral (m.tokens ++ ts) := by
  cases m <;> trivial

/-- At the end of the text the expression is complete. -/
theorem read_nil (e : Expr) : read (after [] e) [] = some e := by
  obtain ⟨gs, d, hafter, hsettle⟩ := settle_after [] rfl e
  rw [hafter, read, finish, close, hsettle]

/-! ## Words between operands -/

/-- Behind a complete left operand an operator waits for the right one. -/
theorem read_operator (op : BinaryOp) (fs : List Frame) (left : Expr) (ts : List Token) :
    read ⟨fs, .complete left⟩
        ([.sign ' '] ++ ((Piece.word op.word).tokens ++ ([.sign ' '] ++ ts))) =
      read ⟨.rightOf op left :: fs, .expecting⟩ ts := by
  cases op <;> rfl

/-- A test for null takes the complete operand before it. -/
theorem read_isNull (fs : List Frame) (e : Expr) (ts : List Token) :
    read ⟨fs, .complete e⟩ ((Piece.word " IS NULL").tokens ++ ts) =
      read ⟨fs, .complete (.unary .isNull e)⟩ ts := rfl

theorem read_isNotNull (fs : List Frame) (e : Expr) (ts : List Token) :
    read ⟨fs, .complete e⟩ ((Piece.word " IS NOT NULL").tokens ++ ts) =
      read ⟨fs, .complete (.unary .isNotNull e)⟩ ts := rfl

end Reader

end GraphQuery
