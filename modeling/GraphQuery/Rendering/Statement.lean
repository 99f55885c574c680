import GraphQuery.NameSupply
import GraphQuery.Rendering.Pattern
import GraphQuery.Syntax.Statement

/-!
# Text of clauses, queries and statements

A conditional becomes three clauses. The first computes the number of the arm
into a selector variable, whose name comes from a supply; the second is a
subquery that holds every query of every arm, each behind a guard on the
selector; the third returns the columns of the arms. Inside a query with clauses
before it, a conditional carries all variables in scope along.

Names are drawn in the order in which selectors appear in the text: a conditional
draws its own before the conditionals in its arms. The functions below return the
pieces together with the supply that is left.
-/

set_option autoImplicit false

namespace GraphQuery

/-- Pieces of an optional filter. -/
def filterPieces : Option Expr → List Piece
  | none => []
  | some condition => .word " WHERE " :: condition.pieces

/-- Pieces of a column. -/
def Column.pieces (item : Column) : List Piece :=
  match item.alias? with
  | none => item.expr.pieces
  | some id => item.expr.pieces ++ [.word " AS ", .name id]

/-- Pieces of columns with commas between them. -/
def columnPieces (items : List Column) : List Piece :=
  Piece.separated comma (items.map Column.pieces)

/-- Pieces of what a projection selects. -/
def Selection.pieces : Selection → List Piece
  | .everything [] => [.word "*"]
  | .everything (first :: more) => .word "*" :: .word ", " :: columnPieces (first :: more)
  | .items first more => columnPieces (first :: more)

/-- Pieces of a projection. -/
def Projection.pieces (p : Projection) : List Piece :=
  if p.distinct then .word "DISTINCT " :: p.selection.pieces else p.selection.pieces

/-- Pieces of a sort key. -/
def SortKey.pieces (item : SortKey) : List Piece :=
  item.expr.pieces ++ [.word (if item.descending then " DESC" else " ASC")]

namespace Choice

/-- Pieces that number the conditions of a conditional, from `number` on. -/
def whenPieces : List Expr → Nat → List Piece
  | [], _ => []
  | condition :: rest, number =>
      .word " WHEN " :: condition.pieces ++ .word " THEN " ::
        .word (Number.naturalText number) :: whenPieces rest (number + 1)

/-- Pieces of the variables that go past the selector. -/
def scopePieces (keepsScope : Bool) (selector : Identifier) : List Piece :=
  if keepsScope then [.word "*"] else [.selector selector]

/-- Pieces of the clause that computes the selector. -/
def selectorPieces (keepsScope : Bool) (selector : Identifier) (conditions : List Expr) :
    List Piece :=
  .word "WITH " :: (if keepsScope then [.word "*, "] else []) ++
    .word "CASE" :: whenPieces conditions 0 ++
      [.word " ELSE ", .word (Number.naturalText conditions.length), .word " END AS ",
        .selector selector]

/-- Pieces that let a query run only when the selector holds `number`. The first
line brings the variables into the subquery, the second tests the selector. -/
def guardPieces (keepsScope : Bool) (selector : Identifier) (number : Nat) : List Piece :=
  .word "WITH " :: scopePieces keepsScope selector ++ .lineBreak ::
    .word "WITH " :: scopePieces keepsScope selector ++
      [.word " WHERE ", .selector selector, .word " = ", .word (Number.naturalText number),
        .lineBreak]

/-- Pieces of the clause that returns the columns of the arms. -/
def returnPieces (columns : List Identifier) : List Piece :=
  .word "RETURN " :: Piece.separated comma (columns.map fun id => [.name id])

end Choice

/-- Pieces between the queries of a union. -/
def UnionMode.pieces (mode : UnionMode) : List Piece :=
  [.lineBreak, .word mode.words, .lineBreak]

mutual

/-- Pieces of a clause. A conditional that keeps the scope carries the variables
before it along. -/
def Clause.pieces (keepsScope : Bool) (supply : NameSupply) :
    Clause → List Piece × NameSupply
  | .matching optional first more filter =>
      (.word (if optional then "OPTIONAL MATCH " else "MATCH ") ::
        Piece.separated comma ((first :: more).map Path.pieces) ++ filterPieces filter, supply)
  | .passing projection filter =>
      (.word "WITH " :: projection.pieces ++ filterPieces filter, supply)
  | .unwind list element =>
      (.word "UNWIND " :: list.pieces ++ [.word " AS ", .name element], supply)
  | .create path => (.word "CREATE " :: path.pieces, supply)
  | .setKey var key value =>
      (.word "SET " :: .name var :: .word "." :: .quoted .backtick key :: .word " = " ::
        value.pieces, supply)
  | .delete detach subject =>
      (.word (if detach then "DETACH DELETE " else "DELETE ") :: subject.pieces, supply)
  | .returning projection => (.word "RETURN " :: projection.pieces, supply)
  | .orderBy items =>
      (.word "ORDER BY " :: Piece.separated comma (items.map SortKey.pieces), supply)
  | .skip count => (.word "SKIP " :: count.pieces, supply)
  | .limit count => (.word "LIMIT " :: count.pieces, supply)
  | .subquery body =>
      let inside := body.pieces supply
      (.openBody :: inside.1 ++ [.closeBody], inside.2)
  | .choice arms => arms.pieces keepsScope supply

/-- Pieces of a conditional. Its own selector is drawn first. -/
def Choice.pieces (keepsScope : Bool) (supply : NameSupply) :
    Choice → List Piece × NameSupply
  | ⟨cases, fallback, columns⟩ =>
      let selector := supply.next
      let guard := Choice.guardPieces keepsScope selector
      let arms := Choice.casePieces guard supply.advance 0 cases
      let last := fallback.armPieces (guard cases.length) arms.2
      (Choice.selectorPieces keepsScope selector (cases.map Prod.fst) ++ .lineBreak ::
        .openBody :: arms.1 ++ last.1 ++ .closeBody :: .lineBreak ::
          Choice.returnPieces columns, last.2)

/-- Pieces of the arms that have a condition, numbered from `number` on, each with
the words that join it to the next. -/
def Choice.casePieces (guard : Nat → List Piece) (supply : NameSupply) (number : Nat) :
    List (Expr × Statement) → List Piece × NameSupply
  | [] => ([], supply)
  | (_, arm) :: rest =>
      let here := arm.armPieces (guard number) supply
      let others := Choice.casePieces guard here.2 (number + 1) rest
      (here.1 ++ UnionMode.all.pieces ++ others.1, others.2)

/-- Pieces of an arm: each of its queries behind the same guard. -/
def Statement.armPieces (guard : List Piece) (supply : NameSupply) :
    Statement → List Piece × NameSupply
  | ⟨first, more, union⟩ =>
      let here := first.pieces supply
      let others := Query.joinedPieces (union.pieces ++ guard) here.2 more
      (guard ++ here.1 ++ others.1, others.2)

/-- Pieces of a query. Its first clause has no scope to keep. -/
def Query.pieces (supply : NameSupply) : Query → List Piece × NameSupply
  | ⟨[]⟩ => ([], supply)
  | ⟨first :: rest⟩ =>
      let here := first.pieces false supply
      let others := Clause.laterPieces here.2 rest
      (here.1 ++ others.1, others.2)

/-- Pieces of the clauses after the first, each on a line of its own. -/
def Clause.laterPieces (supply : NameSupply) : List Clause → List Piece × NameSupply
  | [] => ([], supply)
  | clause :: rest =>
      let here := clause.pieces true supply
      let others := Clause.laterPieces here.2 rest
      (.lineBreak :: here.1 ++ others.1, others.2)

/-- Pieces of further queries, each behind `joint`. -/
def Query.joinedPieces (joint : List Piece) (supply : NameSupply) :
    List Query → List Piece × NameSupply
  | [] => ([], supply)
  | query :: rest =>
      let here := query.pieces supply
      let others := Query.joinedPieces joint here.2 rest
      (joint ++ here.1 ++ others.1, others.2)

/-- Pieces of a statement. -/
def Statement.pieces (supply : NameSupply) : Statement → List Piece × NameSupply
  | ⟨first, more, union⟩ =>
      let here := first.pieces supply
      let others := Query.joinedPieces union.pieces here.2 more
      (here.1 ++ others.1, others.2)

end

end GraphQuery
