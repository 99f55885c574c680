import GraphQuery.Syntax.Pattern

/-!
# Clauses, queries and statements

A query is a sequence of clauses. A statement is one query or a union of
several. Clauses contain statements again: as a subquery, and as the arms of a
conditional, which picks one of several statements when the query runs.

The types admit a query without clauses, which may be written but is no
statement, and conditionals whose arms disagree. The module
`GraphQuery.Checked.Statement` builds those that are in order.
-/

set_option autoImplicit false

namespace GraphQuery

/-- One column of a projection, optionally under a name of its own. -/
structure Column where
  expr : Expr
  alias? : Option Identifier

/-- What a projection selects: every variable in scope and possibly more, or a
list of items that is not empty. -/
inductive Selection where
  | everything (more : List Column)
  | items (first : Column) (more : List Column)

/-- The columns of a WITH or RETURN. -/
structure Projection where
  distinct : Bool
  selection : Selection

/-- Items listed by name. -/
def Projection.items (p : Projection) : List Column :=
  match p.selection with
  | .everything more => more
  | .items first more => first :: more

/-- A key to sort rows by. -/
structure SortKey where
  expr : Expr
  descending : Bool

/-- Whether a union keeps equal rows apart. -/
inductive UnionMode where
  | distinct
  | all
  deriving DecidableEq

/-- The words between the queries of a union. -/
def UnionMode.words : UnionMode → String
  | .distinct => "UNION"
  | .all => "UNION ALL"

mutual

/-- Clauses of a query. -/
inductive Clause where
  | matching (optional : Bool) (first : Path) (more : List Path) (filter : Option Expr)
  | passing (projection : Projection) (filter : Option Expr)
  | unwind (list : Expr) (element : Identifier)
  | create (path : Path)
  | setKey (var : Identifier) (key : String) (value : Expr)
  | delete (detach : Bool) (subject : Expr)
  | returning (projection : Projection)
  | orderBy (items : List SortKey)
  | skip (count : Expr)
  | limit (count : Expr)
  | subquery (body : Statement)
  | choice (arms : Choice)

/-- Clauses in order. -/
structure Query where
  clauses : List Clause

/-- One query or several that are joined. -/
structure Statement where
  first : Query
  more : List Query
  union : UnionMode

/-- A choice between statements: the first case whose condition holds decides,
and the fallback if none does. All of them return the given columns. -/
structure Choice where
  cases : List (Expr × Statement)
  fallback : Statement
  columns : List Identifier

end

/-- Queries in order. -/
def Statement.queries (s : Statement) : List Query := s.first :: s.more

namespace Choice

/-- Conditions in order. -/
def conditions (b : Choice) : List Expr := b.cases.map Prod.fst

/-- One statement for each condition, then the fallback. -/
def arms (b : Choice) : List Statement := b.cases.map Prod.snd ++ [b.fallback]

end Choice

namespace Clause

/-- The words a clause begins with. -/
def keyword : Clause → String
  | .matching true .. => "OPTIONAL MATCH"
  | .matching false .. => "MATCH"
  | .passing .. => "WITH"
  | .unwind .. => "UNWIND"
  | .create .. => "CREATE"
  | .setKey .. => "SET"
  | .delete true .. => "DETACH DELETE"
  | .delete false .. => "DELETE"
  | .returning .. => "RETURN"
  | .orderBy .. => "ORDER BY"
  | .skip .. => "SKIP"
  | .limit .. => "LIMIT"
  | .subquery .. => "CALL"
  | .choice .. => "WITH CASE"

/-- Clauses that sort or cut the rows before them and keep their columns. -/
def keepsColumns : Clause → Bool
  | .orderBy .. => true
  | .skip .. => true
  | .limit .. => true
  | _ => false

/-- Conditionals. -/
def isChoice : Clause → Bool
  | .choice .. => true
  | _ => false

end Clause

namespace Query

/-- The query with one more sort key: it joins an ORDER BY that stands last. -/
def sortedBy (q : Query) (item : SortKey) : Query :=
  match q.clauses.getLast? with
  | some (.orderBy items) => ⟨q.clauses.dropLast ++ [.orderBy (items ++ [item])]⟩
  | _ => ⟨q.clauses ++ [.orderBy [item]]⟩

end Query

/-- Narrows a filter by one more condition. -/
def narrow (filter : Option Expr) (condition : Expr) : Expr :=
  match filter with
  | some present => .binary .and present condition
  | none => condition

end GraphQuery
