import GraphQuery.Proofs.Layout.Levels
import GraphQuery.Proofs.Reading.Numeral

/-!
# Lines with text in them

A fragment without empty queries has text on every line: a line begins neither with a space
nor with a break, and where a body opens something stands before its end.

Main statement: `Fragment.filled_pieces`.
-/

set_option autoImplicit false

namespace GraphQuery

namespace Piece

/-- Whether a line can begin with a piece, which then writes text of its own. -/
def beginsLine : Piece → Bool
  | .word text => text != ""
  | .gap => false
  | .lineBreak => false
  | .closeBody => false
  | _ => true

/-- Whether a line begins behind a piece. -/
def endsLine : Piece → Bool
  | .lineBreak => true
  | .openBody => true
  | _ => false

/-- There is text on every line of the pieces. The first line is still without text if it is
`fresh`; otherwise there is some before the pieces. -/
def Filled : Bool → List Piece → Prop
  | fresh, [] => fresh = false
  | fresh, p :: rest => (fresh = true → p.beginsLine = true) ∧ Filled p.endsLine rest

/-- Pieces that go on where there is text keep every line filled. -/
theorem Filled.append {fresh : Bool} {xs ys : List Piece} (hx : Filled fresh xs)
    (hy : Filled false ys) : Filled fresh (xs ++ ys) := by
  induction xs generalizing fresh with
  | nil =>
      obtain rfl : fresh = false := hx
      exact hy
  | cons p rest ih => exact ⟨hx.1, ih hx.2⟩

/-- Behind text a line may go on with anything that stays on it. -/
theorem Filled.of_inline {ps : List Piece} (h : ps.all isInline = true) : Filled false ps := by
  induction ps with
  | nil => rfl
  | cons p rest ih =>
      rw [List.all_cons, Bool.and_eq_true] at h
      refine ⟨by simp, ?_⟩
      cases p with
      | lineBreak | openBody | closeBody => cases h.1
      | word _ | name _ | selector _ | quoted _ _ | placeholder _ | gap => exact ih h.2

/-- Whether pieces begin with one that can begin a line. -/
def startsLine : List Piece → Bool
  | [] => false
  | p :: _ => p.beginsLine

@[simp]
theorem startsLine_append {xs : List Piece} (h : startsLine xs = true) (ys : List Piece) :
    startsLine (xs ++ ys) = true := by
  cases xs with
  | nil => cases h
  | cons p rest => exact h

/-- An operand begins a line with or without its parentheses. -/
@[simp]
theorem startsLine_parenthesized {xs : List Piece} (h : startsLine xs = true) (needed : Bool) :
    startsLine (parenthesized needed xs) = true := by
  cases needed with
  | false => exact h
  | true => rfl

/-- Pieces on one line fill it if the first of them can begin it. -/
theorem Filled.of_startsLine {ps : List Piece} (hinline : ps.all isInline = true)
    (h : startsLine ps = true) : Filled true ps := by
  cases ps with
  | nil => cases h
  | cons p rest => exact ⟨fun _ => h, (Filled.of_inline hinline).2⟩

end Piece

open Piece (Filled startsLine startsLine_append startsLine_parenthesized)

/-- A level without empty parts has text on every line. -/
theorem BraceLevel.filled {uniform filled : Prop} (hfilled : filled) {mode : UnionMode}
    {ps : List Piece} (h : BraceLevel uniform filled mode ps) : Filled true ps := by
  induction h with
  | nil h => exact absurd hfilled h
  | line hwords hrest => exact .of_startsLine hrest (bne_iff_ne.2 hwords.nonempty)
  | @joint _ joint _ => cases joint <;> exact .of_startsLine rfl rfl
  | body _ ih => exact ⟨fun _ => rfl, ih.append ⟨by simp, rfl⟩⟩
  | glue _ _ ihx ihy => exact ihx.append ⟨by simp, ihy⟩

/-! ## Parts of a line -/

theorem ne_empty_of_isNumeralStart {text : String}
    (h : text.toList.head?.any Number.isNumeralStart = true) : text ≠ "" := by
  rintro rfl
  cases h

/-- A literal begins a line. A number does because it is written with a digit at least. -/
theorem Literal.startsLine_pieces (value : Literal) : startsLine value.pieces = true := by
  cases value with
  | null => rfl
  | bool b => cases b <;> rfl
  | int n =>
      refine bne_iff_ne.2 (ne_empty_of_isNumeralStart ?_)
      rw [Number.integerText, String.toList_ofList]
      exact Number.isNumeralStart_signedDigits n
  | float x => exact bne_iff_ne.2 (ne_empty_of_isNumeralStart (Number.isNumeralStart_text x))
  | string s => rfl

/-- An expression begins with its leftmost operand or with a sign of its own. -/
theorem Expr.startsLine_pieces : ∀ e : Expr, startsLine e.pieces = true
  | .literal value => value.startsLine_pieces
  | .name _ => rfl
  | .placeholder _ => rfl
  | .call .. => rfl
  | .map [] => rfl
  | .map (_ :: _) => rfl
  | .list _ => rfl
  | .property subject _ => by simp [pieces, subject.startsLine_pieces]
  | .index subject _ => by simp [pieces, subject.startsLine_pieces]
  | .sliceFrom subject _ => by simp [pieces, subject.startsLine_pieces]
  | .sliceTo subject _ => by simp [pieces, subject.startsLine_pieces]
  | .slice subject _ _ => by simp [pieces, subject.startsLine_pieces]
  | .unary .not _ => rfl
  | .unary .isNull operand => by simp [pieces, operand.startsLine_pieces]
  | .unary .isNotNull operand => by simp [pieces, operand.startsLine_pieces]
  | .binary _ left _ => by simp [pieces, left.startsLine_pieces]
  | .case .. => rfl

/-- Columns begin a line with the expression of the first one. -/
theorem startsLine_columnPieces (first : Column) (more : List Column) :
    startsLine (columnPieces (first :: more)) = true := by
  have hfirst : startsLine first.pieces = true := by
    unfold Column.pieces
    split
    · exact first.expr.startsLine_pieces
    · exact startsLine_append first.expr.startsLine_pieces _
  cases more with
  | nil => exact hfirst
  | cons second rest => exact startsLine_append (startsLine_append hfirst _) _

theorem Projection.startsLine_pieces (p : Projection) : startsLine p.pieces = true := by
  unfold Projection.pieces
  split
  · rfl
  · cases p.selection with
    | everything more => cases more <;> rfl
    | items first more => exact startsLine_columnPieces first more

/-- A relationship begins with the left end of its arrow. -/
theorem RelationshipPattern.startsLine_pieces (r : RelationshipPattern) :
    startsLine r.pieces = true := by
  show startsLine [.word r.direction.tail] = true
  cases r.direction <;> rfl

theorem Length.startsLine_pieces (l : Length) : startsLine l.pieces = true := by
  refine bne_iff_ne.2 fun hempty => ?_
  have hlist := congrArg String.toList hempty
  cases l <;> simp [Length.text] at hlist

/-- Fragments without empty queries. -/
def Fragment.Occupied : Fragment → Prop
  | .clause c => GraphQuery.Occupied c.nested
  | .query q => q.Occupied
  | .statement s => GraphQuery.Occupied s.nested
  | _ => True

/-- A fragment without empty queries has text on every line. -/
theorem Fragment.filled_pieces {f : Fragment} (h : f.Occupied) (supply : NameSupply) :
    Filled true (f.pieces supply).1 := by
  cases f with
  | expr e => exact .of_startsLine e.inline_pieces e.startsLine_pieces
  | node n => exact .of_startsLine n.inline_pieces rfl
  | relationship r => exact .of_startsLine r.inline_pieces r.startsLine_pieces
  | length l => exact .of_startsLine (inline_lengthPieces (some l)) l.startsLine_pieces
  | path p => exact .of_startsLine p.inline_pieces rfl
  | projection p => exact .of_startsLine p.inline_pieces p.startsLine_pieces
  | clause c =>
      have hlevel : BraceLevel False True .all _ :=
        c.level_pieces .all false false 0 supply False.elim fun _ => h
      exact hlevel.filled trivial
  | query q =>
      have hlevel : BraceLevel False True .all _ :=
        q.level_pieces .all false 0 supply False.elim fun _ => h
      exact hlevel.filled trivial
  | statement s =>
      have hlevel : BraceLevel False True s.union _ :=
        s.level_pieces false 0 supply False.elim fun _ => h
      exact hlevel.filled trivial

end GraphQuery
