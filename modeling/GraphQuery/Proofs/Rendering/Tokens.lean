import GraphQuery.Proofs.Rendering.Spacing
import GraphQuery.Proofs.Text.Tokens

/-!
# Tokens of pieces

In a well spaced list no word of the text runs from one piece into the next, so
each piece has its own tokens, whatever stands around it.

Main statement: `tokens?_write`, the tokens found in the text of well spaced pieces
are the tokens of the pieces.
-/

set_option autoImplicit false

namespace GraphQuery

open Text (Atom Token)

/-- Tokens of a text, `none` if a span never ends. -/
def Text.tokens? (text : String) : Option (List Token) :=
  (Text.atoms? text.toList).map Token.lex

namespace Piece

/-- Tokens of a piece in the compact layout. -/
def tokens (p : Piece) : List Token := Token.lex (p.atomsAt .compact 0)

theorem atomsAt_compact (p : Piece) (depth : Nat) :
    p.atomsAt .compact depth = p.atomsAt .compact 0 := by
  cases p <;> rfl

theorem isWordPart_getLast_append (as : List Atom) (a : Atom) :
    (as ++ [a]).getLast?.any Atom.isWordPart = a.isWordPart := by
  rw [List.getLast?_concat]
  rfl

/-- Characters none of which is a part of a word do not end in one. -/
theorem isWordPart_getLast_bare {cs : List Char} (h : ∀ c ∈ cs, isIdentifierPart c = false) :
    (cs.map Atom.bare).getLast?.any Atom.isWordPart = false := by
  rw [List.getLast?_map]
  cases hlast : cs.getLast? with
  | none => rfl
  | some c => exact h c (List.mem_of_getLast? hlast)

/-- A piece that could not grow does not end in an identifier character. -/
theorem isWordPart_getLast_atomsAt {p : Piece} (hp : p.endsOpen = false) (layout : Layout)
    (depth : Nat) : (p.atomsAt layout depth).getLast?.any Atom.isWordPart = false := by
  cases p with
  | word text =>
      show (text.toList.map Atom.bare).getLast?.any Atom.isWordPart = false
      rw [List.getLast?_map]
      have hlast : text.toList.getLast?.any isIdentifierPart = false := hp
      cases htext : text.toList.getLast? with
      | none => rfl
      | some c => rw [htext] at hlast; exact hlast
  | gap => rfl
  | lineBreak => exact isWordPart_getLast_bare (layout.not_isIdentifierPart_lineBreak depth)
  | openBody =>
      have hbreak := isWordPart_getLast_bare (layout.not_isIdentifierPart_lineBreak (depth + 1))
      show (("CALL \x7b".toList ++ layout.lineBreak (depth + 1)).map Atom.bare).getLast?.any _ = _
      rw [List.map_append, List.getLast?_append]
      cases hlast : ((layout.lineBreak (depth + 1)).map Atom.bare).getLast? with
      | none => rfl
      | some a =>
          rw [hlast] at hbreak
          exact hbreak
  | closeBody =>
      show ((layout.lineBreak (depth - 1) ++ ['\x7d']).map Atom.bare).getLast?.any _ = _
      rw [List.map_append]
      exact isWordPart_getLast_append _ (.bare '\x7d')
  | name _ | selector _ | quoted _ _ | placeholder _ => cases hp

theorem not_isWordPart_of_delimited {as : List Atom} (h : Delimited as) :
    as.head?.any Atom.isWordPart = false := by
  cases as with
  | nil => rfl
  | cons a rest =>
      cases a with
      | bare c => exact not_isIdentifierPart_of_isDelimiter h
      | span q content => rfl

/-- In a well spaced list the tokens of the first piece are its own. -/
theorem lex_atoms_cons {p : Piece} {rest : List Piece} (hw : WellSpaced (p :: rest))
    (layout : Layout) (depth : Nat) :
    Token.lex (atoms layout depth (p :: rest)) =
      Token.lex (p.atomsAt layout depth) ++
        Token.lex (atoms layout (p.depthAfter depth) rest) := by
  refine Token.lex_append fun hlast => ?_
  cases hopen : p.endsOpen with
  | false =>
      rw [isWordPart_getLast_atomsAt hopen] at hlast
      cases hlast
  | true =>
      -- what the piece could grow into begins with a delimiter
      exact not_isWordPart_of_delimited
        (delimited_atoms hw.2.2 (hw.2.1 hopen) layout (p.depthAfter depth))

/-- The tokens of well spaced pieces are found piece by piece. -/
theorem lex_atoms {ps : List Piece} (hw : WellSpaced ps) (depth : Nat) :
    Token.lex (atoms .compact depth ps) = ps.flatMap tokens := by
  induction ps generalizing depth with
  | nil => rfl
  | cons p rest ih =>
      rw [lex_atoms_cons hw, ih hw.2.2, List.flatMap_cons, atomsAt_compact]
      rfl

/-- The tokens of the text of well spaced pieces are those of the pieces. -/
theorem tokens?_write {ps : List Piece} (hw : WellSpaced ps) :
    Text.tokens? (String.ofList (write .compact 0 ps)) = some (ps.flatMap tokens) := by
  rw [Text.tokens?, atoms?_write hw, Option.map_some, lex_atoms hw]

@[simp]
theorem tokens_name (id : Identifier) : (Piece.name id).tokens = [.word id.text.toList] := by
  refine Token.lex_word ?_ id.isIdentifierPart_of_mem
  intro hnil
  have hlegal := id.legal
  rw [hnil] at hlegal
  cases hlegal

@[simp]
theorem tokens_placeholder (p : Placeholder) :
    (Piece.placeholder p).tokens = [.sign '$', .word p.name.text.toList] := by
  have hname := tokens_name p.name
  exact congrArg (Token.push (.bare '$')) hname

end Piece

end GraphQuery
