import GraphQuery.Number.Style
import GraphQuery.Rendering.Piece

/-!
# Text of expressions

Names of functions and keys stand in backticks, strings in double quotes. An
operand that is itself built by an operator stands in parentheses, so the text
needs no rules of precedence.
-/

set_option autoImplicit false

namespace GraphQuery

/-- Pieces of a literal. -/
def Literal.pieces : Literal → List Piece
  | .null => [.word "null"]
  | .bool true => [.word "true"]
  | .bool false => [.word "false"]
  | .int n => [.word (Number.integerText n)]
  | .float x => [.word x.value.text]
  | .string s => [.quoted .double s]

/-- Pieces in parentheses if asked for. -/
def Piece.parenthesized (needed : Bool) (pieces : List Piece) : List Piece :=
  if needed then .word "(" :: pieces ++ [.word ")"] else pieces

namespace Expr

mutual

/-- Pieces of an expression. -/
def pieces : Expr → List Piece
  | .literal value => value.pieces
  | .name var => [.name var]
  | .placeholder p => [.placeholder p]
  | .call function first rest =>
      .quoted .backtick function :: .word "(" :: first.pieces ++ tailPieces rest ++ [.word ")"]
  | .map entries => mapPieces entries
  | .list items => .word "[" :: itemPieces items ++ [.word "]"]
  | .property subject key =>
      Piece.parenthesized subject.isOperator subject.pieces ++
        [.word ".", .quoted .backtick key]
  | .index subject position =>
      Piece.parenthesized subject.isOperator subject.pieces ++
        .word "[" :: position.pieces ++ [.word "]"]
  | .sliceFrom subject low =>
      Piece.parenthesized subject.isOperator subject.pieces ++
        .word "[" :: low.pieces ++ [.word "..", .word "]"]
  | .sliceTo subject high =>
      Piece.parenthesized subject.isOperator subject.pieces ++
        .word "[" :: .word ".." :: high.pieces ++ [.word "]"]
  | .slice subject low high =>
      Piece.parenthesized subject.isOperator subject.pieces ++
        .word "[" :: low.pieces ++ .word ".." :: high.pieces ++ [.word "]"]
  | .unary .not operand =>
      .word "NOT " :: Piece.parenthesized operand.isOperator operand.pieces
  | .unary .isNull operand =>
      Piece.parenthesized operand.isOperator operand.pieces ++ [.word " IS NULL"]
  | .unary .isNotNull operand =>
      Piece.parenthesized operand.isOperator operand.pieces ++ [.word " IS NOT NULL"]
  | .binary op left right =>
      Piece.parenthesized left.isOperator left.pieces ++
        .gap :: .word op.word :: .gap ::
          Piece.parenthesized right.isOperator right.pieces
  | .case condition result more fallback =>
      .word "CASE" :: .word " WHEN " :: condition.pieces ++ .word " THEN " :: result.pieces ++
        armPieces more ++ fallbackPieces fallback ++ [.word " END"]

/-- Pieces of items with commas between them. -/
def itemPieces : List Expr → List Piece
  | [] => []
  | e :: rest => e.pieces ++ tailPieces rest

/-- Pieces of further items, each after a comma. -/
def tailPieces : List Expr → List Piece
  | [] => []
  | e :: rest => .word ", " :: e.pieces ++ tailPieces rest

/-- Pieces of a map in braces. -/
def mapPieces : List (String × Expr) → List Piece
  | [] => [.word "\x7b\x7d"]
  | (key, e) :: rest =>
      .word "\x7b " :: .quoted .backtick key :: .word ": " :: e.pieces ++
        entryPieces rest ++ [.word " \x7d"]

/-- Pieces of further entries of a map, each after a comma. -/
def entryPieces : List (String × Expr) → List Piece
  | [] => []
  | (key, e) :: rest =>
      .word ", " :: .quoted .backtick key :: .word ": " :: e.pieces ++ entryPieces rest

/-- Pieces of further arms of a conditional. -/
def armPieces : List (Expr × Expr) → List Piece
  | [] => []
  | (condition, result) :: rest =>
      .word " WHEN " :: condition.pieces ++ .word " THEN " :: result.pieces ++ armPieces rest

/-- Pieces of the fallback of a conditional. -/
def fallbackPieces : Option Expr → List Piece
  | none => []
  | some e => .word " ELSE " :: e.pieces

end

/-- Text of an expression. An expression has no line breaks, so its text is the
same in both layouts. -/
def text (e : Expr) : String := String.ofList (Piece.write .compact 0 e.pieces)

end Expr

end GraphQuery
