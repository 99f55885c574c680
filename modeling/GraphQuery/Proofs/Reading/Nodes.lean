import GraphQuery.Proofs.Reading.Runs
import GraphQuery.Renaming

/-!
# Reading the nodes of expressions

An expression is read from its tokens in every context, and the reader is left in the
state `after` it (`Reads`). For the nodes with a fixed number of parts there is one
lemma each, which puts together the runs over the parts. Only a variable may mislead
the reader: the text of a variable that is named like a word of the language is that
word.
-/

set_option autoImplicit false

namespace GraphQuery

open Text (Token)
open Reader (Frame Mark after read EndsNumeral endsNumeral_mark read_resume read_operator
  read_isNull read_isNotNull)

/-- Words that the text of expressions is made of. -/
def reservedWords : List String :=
  ["NOT", "IS", "NULL", "IN", "STARTS", "ENDS", "WITH", "CONTAINS", "AND", "OR", "XOR",
    "CASE", "WHEN", "THEN", "ELSE", "END", "null", "true", "false"]

/-- The placeholder at the kind `any`. -/
def Placeholder.forgetKind (p : Placeholder) : Placeholder := ⟨p.name, .any⟩

namespace Expr

mutual

/-- Variables of an expression. -/
def names : Expr → List Identifier
  | .literal _ => []
  | .name var => [var]
  | .placeholder _ => []
  | .call _ first rest => first.names ++ listNames rest
  | .map entries => entryNames entries
  | .list items => listNames items
  | .property subject _ => subject.names
  | .index subject position => subject.names ++ position.names
  | .sliceFrom subject low => subject.names ++ low.names
  | .sliceTo subject high => subject.names ++ high.names
  | .slice subject low high => subject.names ++ (low.names ++ high.names)
  | .unary _ operand => operand.names
  | .binary _ left right => left.names ++ right.names
  | .case condition result more fallback =>
      condition.names ++ (result.names ++ (armNames more ++ fallbackNames fallback))

/-- Variables of several expressions. -/
def listNames : List Expr → List Identifier
  | [] => []
  | e :: rest => e.names ++ listNames rest

/-- Variables of entries of a map. -/
def entryNames : List (String × Expr) → List Identifier
  | [] => []
  | (_, e) :: rest => e.names ++ entryNames rest

/-- Variables of arms of a conditional. -/
def armNames : List (Expr × Expr) → List Identifier
  | [] => []
  | (condition, result) :: rest => condition.names ++ (result.names ++ armNames rest)

/-- Variables of an optional expression. -/
def fallbackNames : Option Expr → List Identifier
  | none => []
  | some e => e.names

end

/-- The expression with all placeholders at the kind `any`. -/
def forgetKinds (e : Expr) : Expr := e.mapPlaceholders Placeholder.forgetKind

/-- Tokens of an expression. -/
def tokens (e : Expr) : List Token := e.pieces.flatMap Piece.tokens

/-- The reader finds the expression in every context. -/
def Reads (e : Expr) : Prop :=
  ∀ (fs : List Frame) (ts : List Token), EndsNumeral ts →
    read ⟨fs, .expecting⟩ (e.tokens ++ ts) = read (after fs e.forgetKinds) ts

/-! ## Leaves -/

theorem reads_number {a : Literal} {text : String} (ha : a.numeral? = some text.toList)
    (htext : a.pieces = [.word text]) : Reads (.literal a) := by
  intro fs ts hts
  obtain ⟨hnumeral, hstart⟩ := Literal.isNumeral_of_numeral? ha
  have htokens : (literal a).tokens = Token.ofChars text.toList := by
    rw [tokens, pieces, htext, List.flatMap_singleton]
    rfl
  rw [htokens, Reader.read_numeral hnumeral hstart, Reader.read_numeral_end ha fs hts]
  rfl

/-- A literal is read back. -/
theorem reads_literal (a : Literal) : Reads (.literal a) := by
  cases a with
  | null => intro fs ts _; rfl
  | bool b => cases b <;> (intro fs ts _; rfl)
  | int n => exact reads_number (by rw [Number.integerText, String.toList_ofList]; rfl) rfl
  | float x => exact reads_number rfl rfl
  | string s =>
      intro fs ts _
      show read ⟨fs, .complete (.literal (.string (String.ofList s.toList)))⟩ ts = _
      rw [String.ofList_toList]
      rfl

theorem isIdentifierStart_of_isDigit {c : Char} (h : c.isDigit = true) :
    isIdentifierStart c = false := by
  have hdigit : 48 ≤ c.val.toNat ∧ c.val.toNat ≤ 57 := by
    simpa [Char.isDigit, UInt32.le_iff_toNat_le] using h
  -- among the ASCII characters the letters are spelt out, and no digit is one
  have hascii : c.toNat ≤ Text.lastAscii := Nat.le_trans hdigit.2 (by decide)
  have hletter : Text.isLetter c = c.isAlpha := if_pos hascii
  have halpha : c.isAlpha = false := by
    refine Bool.or_eq_false_iff.2 ⟨eq_false_of_ne_true fun hupper => ?_,
      eq_false_of_ne_true fun hlower => ?_⟩
    · have hfirst : 65 ≤ c.val.toNat := (of_decide_eq_true hupper).1
      omega
    · have hfirst : 97 ≤ c.val.toNat := of_decide_eq_true (Bool.and_eq_true_iff.1 hlower).1
      omega
  have hunderscore : c ≠ '_' := by
    intro hc
    rw [hc] at h
    cases h
  simp [isIdentifierStart, hletter, halpha, hunderscore]

/-- No identifier begins with a digit. -/
theorem isDigit_head_identifier (var : Identifier) :
    var.text.toList.head?.any Char.isDigit = false := by
  have hlegal := var.legal
  cases htext : var.text.toList with
  | nil => rfl
  | cons c rest =>
      rw [htext, isIdentifier, Bool.and_eq_true] at hlegal
      cases hdigit : c.isDigit with
      | false => exact hdigit
      | true =>
          rw [isIdentifierStart_of_isDigit hdigit] at hlegal
          cases hlegal.1

/-- A variable is read if it is not named like a word of the language. -/
theorem reads_name {var : Identifier} (hvar : var.text ∉ reservedWords) : Reads (.name var) := by
  intro fs ts _
  -- none of the words that the reader looks for at this place is the name
  have hword : ∀ w : String, w ∈ reservedWords → var.text.toList ≠ w.toList := by
    intro w hw heq
    exact hvar (String.toList_inj.1 heq ▸ hw)
  have hstep : Reader.step ⟨fs, .expecting⟩ (.word var.text.toList) =
      some ⟨fs, .complete (.name var)⟩ := by
    show Reader.stepExpecting fs (.word var.text.toList) = _
    rw [Reader.stepExpecting, isDigit_head_identifier, if_neg Bool.false_ne_true,
      if_neg (hword "CASE" (by decide)), if_neg (hword "NOT" (by decide)),
      if_neg (hword "null" (by decide)), if_neg (hword "true" (by decide)),
      if_neg (hword "false" (by decide)), String.ofList_toList, Identifier.of?_text]
    rfl
  have htokens : (name var).tokens = [.word var.text.toList] := by
    rw [tokens, pieces, List.flatMap_singleton, Piece.tokens_name]
  rw [htokens]
  exact Reader.read_cons hstep ts

/-- A placeholder is read back but for its kind, which the text does not show. -/
theorem reads_placeholder (p : Placeholder) : Reads (.placeholder p) := by
  intro fs ts _
  have htokens : (placeholder p).tokens = [.sign '$', .word p.name.text.toList] := by
    rw [tokens, pieces, List.flatMap_singleton, Piece.tokens_placeholder]
  have hstep : Reader.step ⟨fs, .parameter⟩ (.word p.name.text.toList) =
      some ⟨fs, .complete (.placeholder p.forgetKind)⟩ := by
    show (Identifier.of? (String.ofList p.name.text.toList)).map _ = _
    rw [String.ofList_toList, Identifier.of?_text]
    rfl
  rw [htokens]
  exact Reader.read_cons hstep ts

/-! ## Operands -/

/-- Tokens of an expression in the place of an operand. -/
def operandTokens (e : Expr) : List Token :=
  (Piece.parenthesized e.isOperator e.pieces).flatMap Piece.tokens

/-- Without their kinds, placeholders still are no operators. -/
theorem isOperator_forgetKinds (e : Expr) : e.forgetKinds.isOperator = e.isOperator := by
  cases e <;> rfl

/-- An operand is complete when it has been read. -/
theorem Reads.operand {e : Expr} (he : Reads e) (fs : List Frame) {ts : List Token}
    (hts : EndsNumeral ts) :
    read ⟨fs, .expecting⟩ (e.operandTokens ++ ts) = read ⟨fs, .complete e.forgetKinds⟩ ts := by
  cases hop : e.isOperator with
  | false =>
      have hafter := Reader.after_of_not_isOperator ((isOperator_forgetKinds e).trans hop) fs
      have htokens : e.operandTokens = e.tokens := by rw [operandTokens, hop]; rfl
      rw [htokens, he fs ts hts, hafter]
  | true =>
      have htokens : e.operandTokens ++ ts =
          .sign '(' :: (e.tokens ++ (Mark.paren.tokens ++ ts)) := by
        rw [operandTokens, hop, Piece.parenthesized, if_pos rfl, List.flatMap_append,
          List.flatMap_cons, List.append_assoc, List.append_assoc]
        rfl
      calc read ⟨fs, .expecting⟩ (e.operandTokens ++ ts)
          = read ⟨.group :: fs, .expecting⟩ (e.tokens ++ (Mark.paren.tokens ++ ts)) := by
            rw [htokens]
            rfl
        _ = read (after (.group :: fs) e.forgetKinds) (Mark.paren.tokens ++ ts) :=
            he _ _ (endsNumeral_mark .paren ts)
        _ = read ⟨fs, .complete e.forgetKinds⟩ ts := read_resume rfl fs _ .paren ts

/-- A property is read back. -/
theorem reads_property {subject : Expr} (hs : Reads subject) (key : String) :
    Reads (.property subject key) := by
  intro fs ts _
  have htokens : (property subject key).tokens ++ ts =
      subject.operandTokens ++ (.sign '.' :: .quoted .backtick key.toList :: ts) := by
    rw [tokens, pieces, List.flatMap_append, List.append_assoc]
    rfl
  rw [htokens]
  refine (hs.operand fs (by trivial)).trans ?_
  show read ⟨fs, .complete (.property subject.forgetKinds (String.ofList key.toList))⟩ ts = _
  rw [String.ofList_toList]
  rfl

/-! ## Subscripts -/

section Subscripts

variable {subject low high : Expr}

/-- An element of a list is read back. -/
theorem reads_index (hs : Reads subject) (hl : Reads low) : Reads (.index subject low) := by
  intro fs ts _
  have htokens : (index subject low).tokens ++ ts =
      subject.operandTokens ++ (.sign '[' :: (low.tokens ++ (Mark.bracket.tokens ++ ts))) := by
    simp only [tokens, pieces, List.flatMap_append, List.flatMap_cons, List.append_assoc]
    rfl
  rw [htokens]
  calc read ⟨fs, .expecting⟩ (subject.operandTokens ++ (.sign '[' :: _))
      = read ⟨.index subject.forgetKinds :: fs, .expecting⟩
          (low.tokens ++ (Mark.bracket.tokens ++ ts)) := hs.operand fs (by trivial)
    _ = read (after (.index subject.forgetKinds :: fs) low.forgetKinds)
          (Mark.bracket.tokens ++ ts) := hl _ _ (endsNumeral_mark .bracket ts)
    _ = read ⟨fs, .complete (.index subject.forgetKinds low.forgetKinds)⟩ ts :=
        read_resume rfl fs _ .bracket ts

theorem reads_sliceTo (hs : Reads subject) (hh : Reads high) : Reads (.sliceTo subject high) := by
  intro fs ts _
  have htokens : (sliceTo subject high).tokens ++ ts =
      subject.operandTokens ++ (.sign '[' :: (Mark.range.tokens ++
        (high.tokens ++ (Mark.bracket.tokens ++ ts)))) := by
    simp only [tokens, pieces, List.flatMap_append, List.flatMap_cons, List.append_assoc]
    rfl
  rw [htokens]
  calc read ⟨fs, .expecting⟩ (subject.operandTokens ++ (.sign '[' :: _))
      = read ⟨.sliceTo subject.forgetKinds :: fs, .expecting⟩
          (high.tokens ++ (Mark.bracket.tokens ++ ts)) := hs.operand fs (by trivial)
    _ = read (after (.sliceTo subject.forgetKinds :: fs) high.forgetKinds)
          (Mark.bracket.tokens ++ ts) := hh _ _ (endsNumeral_mark .bracket ts)
    _ = read ⟨fs, .complete (.sliceTo subject.forgetKinds high.forgetKinds)⟩ ts :=
        read_resume rfl fs _ .bracket ts

/-- The lower bound of a slice is read up to the points behind it. -/
theorem read_low (hs : Reads subject) (hl : Reads low) (fs : List Frame) (ts : List Token) :
    read ⟨fs, .expecting⟩ (subject.operandTokens ++
        (.sign '[' :: (low.tokens ++ (Mark.range.tokens ++ ts)))) =
      read ⟨.slice subject.forgetKinds low.forgetKinds :: fs, .expecting⟩ ts :=
  calc read ⟨fs, .expecting⟩ (subject.operandTokens ++ (.sign '[' :: _))
      = read ⟨.index subject.forgetKinds :: fs, .expecting⟩
          (low.tokens ++ (Mark.range.tokens ++ ts)) := hs.operand fs (by trivial)
    _ = read (after (.index subject.forgetKinds :: fs) low.forgetKinds)
          (Mark.range.tokens ++ ts) := hl _ _ (endsNumeral_mark .range ts)
    _ = read ⟨.slice subject.forgetKinds low.forgetKinds :: fs, .expecting⟩ ts :=
        read_resume rfl fs _ .range ts

theorem reads_sliceFrom (hs : Reads subject) (hl : Reads low) :
    Reads (.sliceFrom subject low) := by
  intro fs ts _
  have htokens : (sliceFrom subject low).tokens ++ ts =
      subject.operandTokens ++ (.sign '[' :: (low.tokens ++
        (Mark.range.tokens ++ (.sign ']' :: ts)))) := by
    simp only [tokens, pieces, List.flatMap_append, List.flatMap_cons, List.append_assoc]
    rfl
  rw [htokens, read_low hs hl]
  -- the closing bracket stands where the upper bound would begin
  rfl

/-- A slice is read back with both bounds. -/
theorem reads_slice (hs : Reads subject) (hl : Reads low) (hh : Reads high) :
    Reads (.slice subject low high) := by
  intro fs ts _
  have htokens : (slice subject low high).tokens ++ ts =
      subject.operandTokens ++ (.sign '[' :: (low.tokens ++ (Mark.range.tokens ++
        (high.tokens ++ (Mark.bracket.tokens ++ ts))))) := by
    simp only [tokens, pieces, List.flatMap_append, List.flatMap_cons, List.append_assoc]
    rfl
  rw [htokens, read_low hs hl, hh _ _ (endsNumeral_mark .bracket ts)]
  exact read_resume rfl fs _ .bracket ts

end Subscripts

/-! ## Operators -/

/-- An operator with one operand is read back. -/
theorem reads_unary (op : UnaryOp) {operand : Expr} (ho : Reads operand) :
    Reads (.unary op operand) := by
  intro fs ts hts
  cases op with
  | not =>
      have htokens : (unary .not operand).tokens ++ ts =
          .word "NOT".toList :: .sign ' ' :: (operand.operandTokens ++ ts) := by
        rw [tokens, pieces, List.flatMap_cons, List.append_assoc]
        rfl
      rw [htokens]
      exact ho.operand (.negation :: fs) hts
  | isNull =>
      have htokens : (unary .isNull operand).tokens ++ ts =
          operand.operandTokens ++ ((Piece.word " IS NULL").tokens ++ ts) := by
        rw [tokens, pieces, List.flatMap_append, List.append_assoc]
        rfl
      rw [htokens]
      exact (ho.operand fs (by trivial)).trans (read_isNull fs _ ts)
  | isNotNull =>
      have htokens : (unary .isNotNull operand).tokens ++ ts =
          operand.operandTokens ++ ((Piece.word " IS NOT NULL").tokens ++ ts) := by
        rw [tokens, pieces, List.flatMap_append, List.append_assoc]
        rfl
      rw [htokens]
      exact (ho.operand fs (by trivial)).trans (read_isNotNull fs _ ts)

/-- An operator with two operands is read back. -/
theorem reads_binary (op : BinaryOp) {left right : Expr} (hl : Reads left) (hr : Reads right) :
    Reads (.binary op left right) := by
  intro fs ts hts
  have htokens : (binary op left right).tokens ++ ts =
      left.operandTokens ++ ([.sign ' '] ++ ((Piece.word op.word).tokens ++
        ([.sign ' '] ++ (right.operandTokens ++ ts)))) := by
    simp only [tokens, pieces, List.flatMap_append, List.flatMap_cons, List.append_assoc]
    rfl
  rw [htokens]
  calc read ⟨fs, .expecting⟩ (left.operandTokens ++ ([.sign ' '] ++ _))
      = read ⟨fs, .complete left.forgetKinds⟩ ([.sign ' '] ++ ((Piece.word op.word).tokens ++
          ([.sign ' '] ++ (right.operandTokens ++ ts)))) := hl.operand fs (by trivial)
    _ = read ⟨.rightOf op left.forgetKinds :: fs, .expecting⟩ (right.operandTokens ++ ts) :=
        read_operator op fs left.forgetKinds _
    _ = read ⟨.rightOf op left.forgetKinds :: fs, .complete right.forgetKinds⟩ ts :=
        hr.operand _ hts

end Expr

end GraphQuery
