import GraphQuery.Placeholders
import GraphQuery.Proofs.Number.Shortest
import GraphQuery.Proofs.Rendering.Spacing

/-!
# Spacing and placeholders of expressions

The pieces of every expression are well spaced, and the placeholders among them
are the placeholders of the expression, in the same order.
-/

set_option autoImplicit false

namespace GraphQuery

open Piece (WellSpaced startsApart)

theorem isPlain_of_isNumeralPart {c : Char} (h : Number.isNumeralPart c = true) :
    isPlain c = true := by
  simp only [Number.isNumeralPart, Bool.or_eq_true, beq_iff_eq] at h
  rcases h with ((h | rfl) | rfl) | rfl
  · exact isPlain_of_isIdentifierPart (isIdentifierPart_of_isDigit h)
  · decide
  · decide
  · decide

/-- Numbers are plain words. -/
theorem isPlain_numeral {text : String} (h : Number.IsNumeral text.toList) :
    (Piece.word text).isPlain = true :=
  List.all_eq_true.2 fun c hc => isPlain_of_isNumeralPart (h.part c hc)

/-- A literal is one piece, which stands for itself. -/
theorem Literal.wellSpaced_pieces (value : Literal) : WellSpaced value.pieces := by
  have hword : ∀ text : String, (Piece.word text).isPlain = true → WellSpaced [.word text] :=
    fun text ht => ⟨ht, fun _ => rfl, trivial⟩
  cases value with
  | null => exact hword _ (by decide)
  | bool b =>
      cases b with
      | true => exact hword _ (by decide)
      | false => exact hword _ (by decide)
  | int n =>
      refine hword _ (isPlain_numeral ?_)
      rw [Number.integerText, String.toList_ofList]
      exact Number.isNumeral_signedDigits n
  | float x => exact hword _ (isPlain_numeral (Number.isNumeral_text x))
  | string s => exact .apart rfl rfl trivial

namespace Expr

/-! ## Spacing -/

/-- Further items begin with a comma. -/
theorem startsApart_tailPieces (es : List Expr) : startsApart (tailPieces es) = true := by
  cases es with
  | nil => rfl
  | cons e rest => rfl

theorem startsApart_entryPieces (es : List (String × Expr)) :
    startsApart (entryPieces es) = true := by
  cases es with
  | nil => rfl
  | cons e rest => rfl

/-- Further arms begin with a space. -/
theorem startsApart_armPieces (es : List (Expr × Expr)) : startsApart (armPieces es) = true := by
  cases es with
  | nil => rfl
  | cons e rest => rfl

theorem startsApart_fallbackPieces (e : Option Expr) : startsApart (fallbackPieces e) = true := by
  cases e with
  | none => rfl
  | some e => rfl

mutual

/-- The pieces of an expression are well spaced. -/
theorem wellSpaced_pieces : ∀ e : Expr, WellSpaced e.pieces
  | .literal value => value.wellSpaced_pieces
  | .name var => .apart rfl rfl trivial
  | .placeholder p => ⟨rfl, fun _ => rfl, trivial⟩
  | .call function first rest => by
      have hfirst := wellSpaced_pieces first
      have hrest := wellSpaced_tailPieces rest
      have hopen : WellSpaced (.quoted .backtick function :: .word "(" :: first.pieces) :=
        .apart rfl rfl (.closed (by decide) hfirst)
      exact (hopen.append hrest (startsApart_tailPieces rest)).append_word (by decide) (by decide)
  | .map entries => wellSpaced_mapPieces entries
  | .list items => by
      have hitems := wellSpaced_itemPieces items
      exact .closed (by decide) (hitems.append_word (by decide) (by decide))
  | .property subject key => by
      have hsubject := (wellSpaced_pieces subject).parenthesized subject.isOperator
      exact hsubject.append (.closed (by decide) (.apart rfl rfl trivial)) rfl
  | .index subject position => by
      have hsubject := (wellSpaced_pieces subject).parenthesized subject.isOperator
      have hposition := wellSpaced_pieces position
      exact (hsubject.append (.closed (by decide) hposition) rfl).append_word (by decide)
        (by decide)
  | .sliceFrom subject low => by
      have hsubject := (wellSpaced_pieces subject).parenthesized subject.isOperator
      have hlow := wellSpaced_pieces low
      exact (hsubject.append (.closed (by decide) hlow) rfl).append
        (.closed (by decide) (.closed (by decide) trivial)) rfl
  | .sliceTo subject high => by
      have hsubject := (wellSpaced_pieces subject).parenthesized subject.isOperator
      have hhigh := wellSpaced_pieces high
      exact (hsubject.append (.closed (by decide) (.closed (by decide) hhigh)) rfl).append_word
        (by decide) (by decide)
  | .slice subject low high => by
      have hsubject := (wellSpaced_pieces subject).parenthesized subject.isOperator
      have hlow := wellSpaced_pieces low
      have hhigh := wellSpaced_pieces high
      exact ((hsubject.append (.closed (by decide) hlow) rfl).append
        (.closed (by decide) hhigh) rfl).append_word (by decide) (by decide)
  | .unary .not operand => by
      have hoperand := (wellSpaced_pieces operand).parenthesized operand.isOperator
      exact .closed (by decide) hoperand
  | .unary .isNull operand => by
      have hoperand := (wellSpaced_pieces operand).parenthesized operand.isOperator
      exact hoperand.append_word (by decide) (by decide)
  | .unary .isNotNull operand => by
      have hoperand := (wellSpaced_pieces operand).parenthesized operand.isOperator
      exact hoperand.append_word (by decide) (by decide)
  | .binary op left right => by
      -- the word of an operator may end like a name, but a space follows
      have hleft := (wellSpaced_pieces left).parenthesized left.isOperator
      have hright := (wellSpaced_pieces right).parenthesized right.isOperator
      have hop : (Piece.word op.word).isPlain = true := by cases op <;> decide
      exact hleft.append (.closed (by decide) ⟨hop, fun _ => rfl, .closed (by decide) hright⟩) rfl
  | .case condition result more fallback => by
      have hcondition := wellSpaced_pieces condition
      have hresult := wellSpaced_pieces result
      have hmore := wellSpaced_armPieces more
      have hfallback := wellSpaced_fallbackPieces fallback
      have hopen : WellSpaced (.word "CASE" :: .word " WHEN " :: condition.pieces) :=
        ⟨by decide, fun _ => rfl, .closed (by decide) hcondition⟩
      have hfirst := hopen.append (.closed (p := .word " THEN ") (by decide) hresult) rfl
      have harms := hfirst.append hmore (startsApart_armPieces more)
      exact (harms.append hfallback (startsApart_fallbackPieces fallback)).append_word (by decide)
        (by decide)

theorem wellSpaced_itemPieces : ∀ es : List Expr, WellSpaced (itemPieces es)
  | [] => trivial
  | e :: rest =>
      (wellSpaced_pieces e).append (wellSpaced_tailPieces rest) (startsApart_tailPieces rest)

theorem wellSpaced_tailPieces : ∀ es : List Expr, WellSpaced (tailPieces es)
  | [] => trivial
  | e :: rest =>
      WellSpaced.append (.closed (by decide) (wellSpaced_pieces e)) (wellSpaced_tailPieces rest)
        (startsApart_tailPieces rest)

theorem wellSpaced_mapPieces : ∀ es : List (String × Expr), WellSpaced (mapPieces es)
  | [] => .closed (by decide) trivial
  | (key, e) :: rest => by
      have he := wellSpaced_pieces e
      have hrest := wellSpaced_entryPieces rest
      have hopen : WellSpaced (.word "\x7b " :: .quoted .backtick key :: .word ": " :: e.pieces) :=
        .closed (by decide) (.apart rfl rfl (.closed (by decide) he))
      exact (hopen.append hrest (startsApart_entryPieces rest)).append_word (by decide) (by decide)

theorem wellSpaced_entryPieces : ∀ es : List (String × Expr), WellSpaced (entryPieces es)
  | [] => trivial
  | (key, e) :: rest => by
      have he := wellSpaced_pieces e
      have hopen : WellSpaced (.word ", " :: .quoted .backtick key :: .word ": " :: e.pieces) :=
        .closed (by decide) (.apart rfl rfl (.closed (by decide) he))
      exact hopen.append (wellSpaced_entryPieces rest) (startsApart_entryPieces rest)

theorem wellSpaced_armPieces : ∀ es : List (Expr × Expr), WellSpaced (armPieces es)
  | [] => trivial
  | (condition, result) :: rest => by
      have hcondition := wellSpaced_pieces condition
      have hresult := wellSpaced_pieces result
      have harm :
          WellSpaced (.word " WHEN " :: condition.pieces ++ .word " THEN " :: result.pieces) :=
        WellSpaced.append (.closed (by decide) hcondition) (.closed (by decide) hresult) rfl
      exact harm.append (wellSpaced_armPieces rest) (startsApart_armPieces rest)

theorem wellSpaced_fallbackPieces : ∀ e : Option Expr, WellSpaced (fallbackPieces e)
  | none => trivial
  | some e => .closed (by decide) (wellSpaced_pieces e)

end

/-! ## Layout -/

mutual

/-- No line ends inside an expression. -/
theorem inline_pieces : ∀ e : Expr, e.pieces.all Piece.isInline = true
  | .literal value => by
      cases value with
      | bool b => cases b <;> rfl
      | null | int _ | float _ | string _ => rfl
  | .name var => rfl
  | .placeholder p => rfl
  | .call function first rest => by simp [pieces, inline_pieces first, inline_tailPieces rest]
  | .map entries => inline_mapPieces entries
  | .list items => by simp [pieces, inline_itemPieces items]
  | .property subject key => by simp [pieces, inline_pieces subject]
  | .index subject position => by
      simp [pieces, inline_pieces subject, inline_pieces position]
  | .sliceFrom subject low => by simp [pieces, inline_pieces subject, inline_pieces low]
  | .sliceTo subject high => by simp [pieces, inline_pieces subject, inline_pieces high]
  | .slice subject low high => by
      simp [pieces, inline_pieces subject, inline_pieces low, inline_pieces high]
  | .unary op operand => by cases op <;> simp [pieces, inline_pieces operand]
  | .binary op left right => by simp [pieces, inline_pieces left, inline_pieces right]
  | .case condition result more fallback => by
      simp [pieces, inline_pieces condition, inline_pieces result, inline_armPieces more,
        inline_fallbackPieces fallback]

theorem inline_itemPieces : ∀ es : List Expr, (itemPieces es).all Piece.isInline = true
  | [] => rfl
  | e :: rest => by simp [itemPieces, inline_pieces e, inline_tailPieces rest]

theorem inline_tailPieces : ∀ es : List Expr, (tailPieces es).all Piece.isInline = true
  | [] => rfl
  | e :: rest => by simp [tailPieces, inline_pieces e, inline_tailPieces rest]

theorem inline_mapPieces : ∀ es : List (String × Expr), (mapPieces es).all Piece.isInline = true
  | [] => rfl
  | (key, e) :: rest => by simp [mapPieces, inline_pieces e, inline_entryPieces rest]

theorem inline_entryPieces : ∀ es : List (String × Expr),
    (entryPieces es).all Piece.isInline = true
  | [] => rfl
  | (key, e) :: rest => by simp [entryPieces, inline_pieces e, inline_entryPieces rest]

theorem inline_armPieces : ∀ es : List (Expr × Expr), (armPieces es).all Piece.isInline = true
  | [] => rfl
  | (condition, result) :: rest => by
      simp [armPieces, inline_pieces condition, inline_pieces result, inline_armPieces rest]

theorem inline_fallbackPieces : ∀ e : Option Expr, (fallbackPieces e).all Piece.isInline = true
  | none => rfl
  | some e => by simp [fallbackPieces, inline_pieces e]

end

/-- The text of an expression is the same in both layouts, at every depth. -/
theorem write_pieces (e : Expr) (layout : Layout) (depth : Nat) :
    String.ofList (Piece.write layout depth e.pieces) = e.text := by
  rw [text, Piece.write_of_inline e.inline_pieces]

/-! ## Placeholders -/

mutual

/-- The text of an expression shows its placeholders. -/
theorem placeholders_pieces : ∀ e : Expr, Piece.placeholders e.pieces = e.placeholders
  | .literal value => by
      cases value with
      | bool b => cases b <;> rfl
      | null | int _ | float _ | string _ => rfl
  | .name var => rfl
  | .placeholder p => rfl
  | .call function first rest => by
      simp [pieces, placeholders, placeholders_pieces first, placeholders_tailPieces rest]
  | .map entries => placeholders_mapPieces entries
  | .list items => by simp [pieces, placeholders, placeholders_itemPieces items]
  | .property subject key => by simp [pieces, placeholders, placeholders_pieces subject]
  | .index subject position => by
      simp [pieces, placeholders, placeholders_pieces subject, placeholders_pieces position]
  | .sliceFrom subject low => by
      simp [pieces, placeholders, placeholders_pieces subject, placeholders_pieces low]
  | .sliceTo subject high => by
      simp [pieces, placeholders, placeholders_pieces subject, placeholders_pieces high]
  | .slice subject low high => by
      simp [pieces, placeholders, placeholders_pieces subject, placeholders_pieces low,
        placeholders_pieces high]
  | .unary op operand => by
      cases op <;> simp [pieces, placeholders, placeholders_pieces operand]
  | .binary op left right => by
      simp [pieces, placeholders, placeholders_pieces left, placeholders_pieces right]
  | .case condition result more fallback => by
      simp [pieces, placeholders, placeholders_pieces condition, placeholders_pieces result,
        placeholders_armPieces more, placeholders_fallbackPieces fallback]

theorem placeholders_itemPieces :
    ∀ es : List Expr, Piece.placeholders (itemPieces es) = listPlaceholders es
  | [] => rfl
  | e :: rest => by
      simp [itemPieces, listPlaceholders, placeholders_pieces e, placeholders_tailPieces rest]

theorem placeholders_tailPieces :
    ∀ es : List Expr, Piece.placeholders (tailPieces es) = listPlaceholders es
  | [] => rfl
  | e :: rest => by
      simp [tailPieces, listPlaceholders, placeholders_pieces e, placeholders_tailPieces rest]

theorem placeholders_mapPieces :
    ∀ es : List (String × Expr), Piece.placeholders (mapPieces es) = entryPlaceholders es
  | [] => rfl
  | (key, e) :: rest => by
      simp [mapPieces, entryPlaceholders, placeholders_pieces e, placeholders_entryPieces rest]

theorem placeholders_entryPieces :
    ∀ es : List (String × Expr), Piece.placeholders (entryPieces es) = entryPlaceholders es
  | [] => rfl
  | (key, e) :: rest => by
      simp [entryPieces, entryPlaceholders, placeholders_pieces e, placeholders_entryPieces rest]

theorem placeholders_armPieces :
    ∀ es : List (Expr × Expr), Piece.placeholders (armPieces es) = armPlaceholders es
  | [] => rfl
  | (condition, result) :: rest => by
      simp [armPieces, armPlaceholders, placeholders_pieces condition, placeholders_pieces result,
        placeholders_armPieces rest]

theorem placeholders_fallbackPieces :
    ∀ e : Option Expr, Piece.placeholders (fallbackPieces e) = fallbackPlaceholders e
  | none => rfl
  | some e => by simp [fallbackPieces, fallbackPlaceholders, placeholders_pieces e]

end

end Expr

end GraphQuery
