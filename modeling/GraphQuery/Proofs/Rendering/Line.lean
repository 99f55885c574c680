import GraphQuery.Proofs.Rendering.Arms

/-!
# Text on one line

In the compact layout a break is one space, so the text of pieces is put together piece by
piece and does not depend on the depth. A conditional then reads as a selector, the
queries of all its arms behind their guards, and the columns.

Main statement: `Choice.line_pieces`.
-/

set_option autoImplicit false

namespace GraphQuery

namespace Piece

/-- The text of a piece in the compact layout. -/
@[simp]
def lineText : Piece → String
  | .word text => text
  | .name id => id.text
  | .selector id => id.text
  | .quoted quote content => String.ofList (quote.encode content)
  | .placeholder p => "$" ++ p.name.text
  | .gap => " "
  | .lineBreak => " "
  | .openBody => "CALL \x7b "
  | .closeBody => " \x7d"

/-- The text of pieces in the compact layout. -/
def line (ps : List Piece) : String := String.join (ps.map lineText)

@[simp]
theorem line_nil : line [] = "" := rfl

@[simp]
theorem line_cons (p : Piece) (rest : List Piece) : line (p :: rest) = p.lineText ++ line rest :=
  String.join_cons

/-- The line of pieces is put together of their texts. -/
@[simp]
theorem line_append (xs ys : List Piece) : line (xs ++ ys) = line xs ++ line ys := by
  rw [line, List.map_append, String.join_append]
  rfl

/-- Pieces are written on one line as they would be at any depth. -/
theorem ofList_write_compact (depth : Nat) (ps : List Piece) :
    String.ofList (write .compact depth ps) = line ps := by
  induction ps generalizing depth with
  | nil => rfl
  | cons p rest ih =>
      rw [line_cons]
      cases p with
      | word text =>
          show String.ofList (text.toList ++ write .compact depth rest) = text ++ line rest
          rw [String.ofList_append, ih, String.ofList_toList]
      | name id | selector id =>
          show String.ofList (id.text.toList ++ write .compact depth rest) = id.text ++ line rest
          rw [String.ofList_append, ih, String.ofList_toList]
      | quoted quote content =>
          show String.ofList (quote.encode content ++ write .compact depth rest) = _
          rw [String.ofList_append, ih]
          rfl
      | placeholder p =>
          show String.ofList (['$'] ++ p.name.text.toList ++ write .compact depth rest) = _
          rw [String.ofList_append, String.ofList_append, ih, String.ofList_toList]
          rfl
      | gap | lineBreak =>
          show String.ofList ([' '] ++ write .compact depth rest) = _
          rw [String.ofList_append, ih]
          rfl
      | openBody =>
          show String.ofList ("CALL \x7b ".toList ++ write .compact (depth + 1) rest) = _
          rw [String.ofList_append, ih, String.ofList_toList]
          rfl
      | closeBody =>
          show String.ofList (" \x7d".toList ++ write .compact (depth - 1) rest) = _
          rw [String.ofList_append, ih, String.ofList_toList]
          rfl

/-- Groups with commas between them are written as their texts with commas between them. -/
theorem line_separated : ∀ groups : List (List Piece),
    line (separated comma groups) = ", ".intercalate (groups.map line)
  | [] => rfl
  | [g] => String.intercalate_singleton.symm
  | g :: g' :: rest => by
      have hrest := line_separated (g' :: rest)
      rw [List.map_cons] at hrest
      rw [separated, line_append, line_append, hrest, List.map_cons, List.map_cons,
        String.intercalate_cons_cons]
      · rfl
      · simp

end Piece

open Piece (line)

/-- The text of an expression is the text of its pieces. -/
theorem Expr.line_pieces (e : Expr) : line e.pieces = e.text :=
  (Piece.ofList_write_compact 0 e.pieces).symm

theorem UnionMode.line_pieces (mode : UnionMode) :
    line mode.pieces = " " ++ mode.words ++ " " := by
  simp only [UnionMode.pieces, Piece.line_cons, Piece.line_nil, Piece.lineText,
    String.append_empty, String.append_assoc]

/-! ## The text of a conditional -/

namespace Choice

/-- Text that numbers the conditions of a conditional, from `number` on. -/
def whenText (number : Nat) : List String → String
  | [] => ""
  | condition :: rest =>
      " WHEN " ++ condition ++ " THEN " ++ Number.naturalText number ++
        whenText (number + 1) rest

/-- Text of the variables that go past the selector. -/
def scopeText (keepsScope : Bool) (selector : Identifier) : String :=
  if keepsScope then "*" else selector.text

/-- Text that stands before each query of an arm. -/
def guardText (keepsScope : Bool) (selector : Identifier) (number : Nat) : String :=
  "WITH " ++ scopeText keepsScope selector ++ " WITH " ++ scopeText keepsScope selector ++
    " WHERE " ++ selector.text ++ " = " ++ Number.naturalText number ++ " "

/-- Texts of queries of arms, each behind its guard, with the mode of the union before it. -/
def guardedTexts (guard : Nat → String) (supply : NameSupply) :
    List ArmQuery → List (UnionMode × String)
  | [] => []
  | q :: rest =>
      (q.joint, guard q.number ++ line (q.query.pieces supply).1) ::
        guardedTexts guard (supply.after q.query.choiceCount) rest

/-- Texts with the words that join each to the one before it. -/
def joinedText : List (UnionMode × String) → String
  | [] => ""
  | (mode, text) :: rest => " " ++ mode.words ++ " " ++ text ++ joinedText rest

/-- Texts with the words of the union in the gaps. -/
def unionText : List (UnionMode × String) → String
  | [] => ""
  | (_, text) :: rest => text ++ joinedText rest

/-- Text that computes the selector, from the texts of the conditions. -/
def selectorText (keepsScope : Bool) (selector : Identifier) (conditions : List String) :
    String :=
  (if keepsScope then "WITH *, CASE" else "WITH CASE") ++ whenText 0 conditions ++
    " ELSE " ++ Number.naturalText conditions.length ++ " END AS " ++ selector.text

/-- Text of a conditional, from the text that computes the selector and that of the arms. -/
def writtenText (selector arms : String) (columns : List Identifier) : String :=
  selector ++ " CALL \x7b " ++ arms ++ " \x7d RETURN " ++
    ", ".intercalate (columns.map Identifier.text)

/-! ## The pieces of a conditional on one line -/

/-- The conditions of a conditional are numbered in its text. -/
theorem line_whenPieces (conditions : List Expr) (number : Nat) :
    line (whenPieces conditions number) = whenText number (conditions.map Expr.text) := by
  induction conditions generalizing number with
  | nil => rfl
  | cons condition rest ih =>
      simp [whenPieces, whenText, ih, condition.line_pieces, String.append_assoc]

/-- The text of the clause that computes a selector. -/
theorem line_selectorPieces (keepsScope : Bool) (selector : Identifier)
    (conditions : List Expr) :
    line (selectorPieces keepsScope selector conditions) =
      selectorText keepsScope selector (conditions.map Expr.text) := by
  cases keepsScope with
  | false =>
      simp only [selectorPieces, selectorText, Piece.line_append, Piece.line_cons, Piece.lineText,
        Piece.line_nil, line_whenPieces, List.length_map, String.append_empty,
        String.append_assoc, Bool.false_eq_true, if_false]
      exact String.append_assoc.symm
  | true =>
      simp only [selectorPieces, selectorText, Piece.line_append, Piece.line_cons, Piece.lineText,
        Piece.line_nil, line_whenPieces, List.length_map, String.append_empty,
        String.append_assoc, if_true]
      rw [← String.append_assoc, ← String.append_assoc]
      rfl

theorem line_returnPieces (columns : List Identifier) :
    line (returnPieces columns) =
      "RETURN " ++ ", ".intercalate (columns.map Identifier.text) := by
  have hname : (line ∘ fun id => [Piece.name id]) = Identifier.text :=
    funext fun id => (Piece.line_cons _ []).trans String.append_empty
  rw [returnPieces, Piece.line_cons, Piece.line_separated, List.map_map, hname]
  rfl

/-- The text of a guard. -/
theorem line_guardPieces (keepsScope : Bool) (selector : Identifier) (number : Nat) :
    line (guardPieces keepsScope selector number) = guardText keepsScope selector number := by
  have hjoin (text : String) : " " ++ ("WITH " ++ text) = " WITH " ++ text :=
    String.append_assoc.symm
  have hscope : line (scopePieces keepsScope selector) = scopeText keepsScope selector := by
    cases keepsScope with
    | false => exact (Piece.line_cons _ []).trans String.append_empty
    | true => rfl
  unfold guardPieces guardText
  simp only [Piece.line_cons, Piece.line_append, Piece.lineText, hscope, Piece.line_nil,
    String.append_empty, String.append_assoc, hjoin]

theorem line_joinedPieces (groups : List (UnionMode × List Piece)) :
    line (joinedPieces groups) =
      joinedText (groups.map fun (mode, ps) => (mode, line ps)) := by
  induction groups with
  | nil => rfl
  | cons group rest ih =>
      obtain ⟨mode, ps⟩ := group
      simp only [joinedPieces, List.map_cons, joinedText, Piece.line_append, mode.line_pieces, ih]

theorem line_unionPieces (groups : List (UnionMode × List Piece)) :
    line (unionPieces groups) = unionText (groups.map fun (mode, ps) => (mode, line ps)) := by
  cases groups with
  | nil => rfl
  | cons group rest =>
      obtain ⟨mode, ps⟩ := group
      simp only [unionPieces, List.map_cons, unionText, Piece.line_append, line_joinedPieces]

/-- The text of each query of the arms, behind its guard. -/
theorem line_guardedPieces (keepsScope : Bool) (selector : Identifier) (qs : List ArmQuery)
    (supply : NameSupply) :
    (guardedPieces (guardPieces keepsScope selector) supply qs).map
        (fun (mode, ps) => (mode, line ps)) =
      guardedTexts (guardText keepsScope selector) supply qs := by
  induction qs generalizing supply with
  | nil => rfl
  | cons q rest ih =>
      simp only [guardedPieces, List.map_cons, guardedTexts, Piece.line_append, line_guardPieces,
        ih]

/-- A conditional on one line. -/
theorem line_pieces (keepsScope : Bool) (supply : NameSupply) (c : Choice) :
    line (c.pieces keepsScope supply).1 =
      writtenText (selectorText keepsScope supply.next (c.conditions.map Expr.text))
        (unionText (guardedTexts (guardText keepsScope supply.next) supply.advance c.armQueries))
        c.columns := by
  have hbody (text : String) : " " ++ ("CALL \x7b " ++ text) = " CALL \x7b " ++ text :=
    String.append_assoc.symm
  have hreturn (text : String) : " \x7d" ++ (" " ++ ("RETURN " ++ text)) =
      " \x7d RETURN " ++ text := by
    rw [← String.append_assoc, ← String.append_assoc]
    rfl
  simp only [pieces_eq, Piece.line_append, Piece.line_cons, Piece.lineText,
    line_selectorPieces, line_unionPieces, line_guardedPieces, line_returnPieces, writtenText,
    String.append_assoc, hbody, hreturn]

end Choice

end GraphQuery
