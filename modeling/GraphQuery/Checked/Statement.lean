import GraphQuery.Error
import GraphQuery.Rendering.Expr
import GraphQuery.Syntax.Statement

/-!
# Building statements and conditionals

A query becomes a statement when it has a clause, and when nothing but sorting
and cutting follows a conditional in it. A conditional is built from statements
that return the same named columns; since its arms are joined keeping duplicates,
an arm that is itself a union has to keep them too.
-/

set_option autoImplicit false

namespace GraphQuery

/-- The name under which a projected item is returned: its alias, or else the
variable that it is. -/
def Column.name (item : Column) : Except Error Identifier :=
  match item.alias?, item.expr with
  | some id, _ => .ok id
  | none, .name var => .ok var
  | none, e => .error (.unnamedColumn e.text)

/-- The names of several projected items, or the error of the first without one. -/
def Column.names : List Column → Except Error (List Identifier)
  | [] => .ok []
  | item :: rest => do
      let name ← item.name
      let names ← Column.names rest
      return name :: names

/-- The names of the columns of a projection. Columns selected without being
listed have none. -/
def Projection.columns (p : Projection) : Except Error (List Identifier) :=
  match p.selection with
  | .everything _ => .error (.unnamedColumn "*")
  | .items first more => Column.names (first :: more)

/-- Compares columns with those expected. -/
def requireColumns (expected found : List Identifier) : Except Error Unit :=
  if expected = found then .ok () else .error (.columnMismatch expected found)

namespace Query

/-- The names of the columns that a query returns. Its last clause, sorting and
cutting aside, has to return some. -/
def columns (q : Query) : Except Error (List Identifier) :=
  match q.clauses.reverse.find? fun clause => !clause.keepsColumns with
  | some (.returning projection) => projection.columns
  | some (.choice choice) => .ok choice.columns
  | _ => .error .missingReturn

/-- The first clause behind a conditional that neither sorts nor cuts. -/
def strayClause? (q : Query) : Option Clause :=
  ((q.clauses.dropWhile fun clause => !clause.isChoice).drop 1).find?
    fun clause => !clause.keepsColumns

/-- Whether a query may stand in a statement. -/
def check (q : Query) : Except Error Unit :=
  if q.clauses.isEmpty then .error .emptyQuery
  else
    match q.strayClause? with
    | some clause => .error (.clauseAfterChoice clause.keyword)
    | none => .ok ()

/-- Checks queries in order. -/
def checkAll : List Query → Except Error Unit
  | [] => .ok ()
  | q :: rest => do
      q.check
      checkAll rest

/-- Compares the columns of queries with those expected. -/
def requireColumns (expected : List Identifier) : List Query → Except Error Unit
  | [] => .ok ()
  | q :: rest => do
      GraphQuery.requireColumns expected (← q.columns)
      requireColumns expected rest

end Query

namespace Statement

/-- The statement of one query. -/
def single (q : Query) : Except Error Statement := do
  q.check
  return ⟨q, [], .distinct⟩

/-- The union of several queries. -/
def unite (mode : UnionMode) (queries : List Query) : Except Error Statement :=
  match queries with
  | [] => .error .emptyUnion
  | first :: more => do
      Query.checkAll (first :: more)
      return ⟨first, more, mode⟩

/-- The names of the columns that a statement returns. All its queries have to
agree. -/
def columns (s : Statement) : Except Error (List Identifier) := do
  let expected ← s.first.columns
  Query.requireColumns expected s.more
  return expected

/-- Whether a statement drops equal rows between its queries. -/
def isDistinctUnion (s : Statement) : Bool :=
  !s.more.isEmpty && s.union == .distinct

/-- Compares the columns of statements with those expected. -/
def requireColumns (expected : List Identifier) : List Statement → Except Error Unit
  | [] => .ok ()
  | s :: rest => do
      GraphQuery.requireColumns expected (← s.columns)
      requireColumns expected rest

/-- The columns on which statements agree. -/
def commonColumns (first : Statement) (more : List Statement) :
    Except Error (List Identifier) := do
  let expected ← first.columns
  requireColumns expected more
  return expected

end Statement

namespace Choice

/-- The conditional of the given cases and fallback. -/
def build (cases : List (Expr × Statement)) (fallback : Statement) :
    Except Error Choice :=
  match cases with
  | [] => .error .noCases
  | (_, first) :: rest =>
      let more := rest.map Prod.snd ++ [fallback]
      match (first :: more).findIdx? Statement.isDistinctUnion with
      | some arm => .error (.distinctUnionArm arm)
      | none => do
          let columns ← Statement.commonColumns first more
          return ⟨cases, fallback, columns⟩

end Choice

end GraphQuery
