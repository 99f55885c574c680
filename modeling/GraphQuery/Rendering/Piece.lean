import GraphQuery.Syntax.Expr
import GraphQuery.Text.Quoted

/-!
# Pieces of query text

A part of a query is first turned into a list of pieces: words of the language,
names, quoted content, placeholders, and the places where a line may end. The
pieces do not depend on the layout; writing them in a layout gives the text.
-/

set_option autoImplicit false

namespace GraphQuery

/-- Units of query text. -/
inductive Piece where
  /-- Words, signs and numbers of the language, with the spaces around them. -/
  | word (text : String)
  /-- A name written bare. -/
  | name (id : Identifier)
  /-- The variable in which a conditional keeps the number of its arm. -/
  | selector (id : Identifier)
  | quoted (quote : Text.Quote) (content : String)
  | placeholder (p : Placeholder)
  /-- A space around an operator. -/
  | gap
  /-- A place where a line ends in the pretty layout. -/
  | lineBreak
  /-- The start of a subquery body. The line ends and the depth grows by one. -/
  | openBody
  /-- The end of a subquery body. The depth shrinks by one and the line ends. -/
  | closeBody
  deriving DecidableEq

/-- Layouts of query text: all on one line, or one clause to a line. -/
inductive Layout where
  | compact
  | pretty
  deriving DecidableEq

/-- What ends a line before text at the given depth. -/
def Layout.lineBreak (layout : Layout) (depth : Nat) : List Char :=
  match layout with
  | .compact => [' ']
  | .pretty => '\n' :: List.replicate (4 * depth) ' '

namespace Piece

/-- The placeholder a piece is, if it is one. -/
def placeholder? : Piece → Option Placeholder
  | .placeholder p => some p
  | _ => none

/-- Placeholders of a text in order. -/
def placeholders (pieces : List Piece) : List Placeholder :=
  pieces.filterMap placeholder?

/-- Text of pieces that begin at the given depth. -/
def write (layout : Layout) : Nat → List Piece → List Char
  | _, [] => []
  | depth, .word text :: rest => text.toList ++ write layout depth rest
  | depth, .name id :: rest => id.text.toList ++ write layout depth rest
  | depth, .selector id :: rest => id.text.toList ++ write layout depth rest
  | depth, .quoted quote content :: rest => quote.encode content ++ write layout depth rest
  | depth, .placeholder p :: rest => '$' :: p.name.text.toList ++ write layout depth rest
  | depth, .gap :: rest => ' ' :: write layout depth rest
  | depth, .lineBreak :: rest => layout.lineBreak depth ++ write layout depth rest
  | depth, .openBody :: rest =>
      "CALL \x7b".toList ++ layout.lineBreak (depth + 1) ++ write layout (depth + 1) rest
  | depth, .closeBody :: rest =>
      layout.lineBreak (depth - 1) ++ '\x7d' :: write layout (depth - 1) rest

/-- Groups of pieces with `between` in the gaps. -/
def separated (between : List Piece) : List (List Piece) → List Piece
  | [] => []
  | [group] => group
  | group :: rest => group ++ between ++ separated between rest

end Piece

/-- The separator of items in a list. -/
def comma : List Piece := [.word ", "]

/-- Query text with the placeholders in it. -/
structure Rendered where
  text : String
  /-- Distinct uses of placeholders, in the order of their first use. -/
  uses : List Placeholder
  deriving DecidableEq

namespace Rendered

/-- Pieces written in a layout. -/
def ofPieces (layout : Layout) (pieces : List Piece) : Rendered where
  text := String.ofList (Piece.write layout 0 pieces)
  uses := (Piece.placeholders pieces).eraseDups

/-- Names of the placeholders, in the order of their first use. -/
def names (r : Rendered) : List Identifier := (r.uses.map Placeholder.name).eraseDups

end Rendered

end GraphQuery
