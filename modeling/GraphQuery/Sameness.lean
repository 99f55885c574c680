import GraphQuery.Syntax.Statement

/-!
# Sameness of parts of queries

Two parts are the same when they have the same structure, where the entries of a
map may come in any order and floats count as numbers, so that the two zeros are
the same.
-/

set_option autoImplicit false

namespace GraphQuery

/-- Sameness of literals: floats as numbers, all others by equality. -/
def Literal.same : Literal → Literal → Bool
  | .float x, .float y => x.value.sameNumber y.value
  | a, b => a == b

namespace Expr

mutual

/-- Sameness of expressions. -/
def same : Expr → Expr → Bool
  | .literal a, .literal b => a.same b
  | .name a, .name b => a == b
  | .placeholder p, .placeholder q => p == q
  | .call f first rest, .call g first' rest' =>
      f == g && first.same first' && sameList rest rest'
  | .map es, .map fs => es.length == fs.length && sameEntries es fs
  | .list as, .list bs => sameList as bs
  | .property a key, .property b key' => a.same b && key == key'
  | .index a i, .index b j => a.same b && i.same j
  | .sliceFrom a low, .sliceFrom b low' => a.same b && low.same low'
  | .sliceTo a high, .sliceTo b high' => a.same b && high.same high'
  | .slice a low high, .slice b low' high' =>
      a.same b && low.same low' && high.same high'
  | .unary op a, .unary op' b => op == op' && a.same b
  | .binary op a b, .binary op' a' b' => op == op' && a.same a' && b.same b'
  | .case c r more fallback, .case c' r' more' fallback' =>
      c.same c' && r.same r' && sameArms more more' && sameFallback fallback fallback'
  | _, _ => false

/-- Sameness expression by expression. -/
def sameList : List Expr → List Expr → Bool
  | [], [] => true
  | a :: as, b :: bs => a.same b && sameList as bs
  | _, _ => false

/-- Whether every entry has one with the same key and the same expression. -/
def sameEntries : List (String × Expr) → List (String × Expr) → Bool
  | [], _ => true
  | (key, a) :: rest, others =>
      (match others.lookup key with
        | some b => a.same b
        | none => false) && sameEntries rest others

/-- Sameness arm by arm. -/
def sameArms : List (Expr × Expr) → List (Expr × Expr) → Bool
  | [], [] => true
  | (c, r) :: rest, (c', r') :: rest' => c.same c' && r.same r' && sameArms rest rest'
  | _, _ => false

/-- Sameness of optional expressions. -/
def sameFallback : Option Expr → Option Expr → Bool
  | none, none => true
  | some a, some b => a.same b
  | _, _ => false

end

/-- Sameness of maps given by their entries. -/
def sameMap (es fs : List (String × Expr)) : Bool :=
  es.length == fs.length && sameEntries es fs

end Expr

/-- Sameness of lists, element by element. -/
def sameListBy {α : Type} (same : α → α → Bool) : List α → List α → Bool
  | [], [] => true
  | a :: as, b :: bs => same a b && sameListBy same as bs
  | _, _ => false

/-- Sameness of nodes. -/
def NodePattern.same (n m : NodePattern) : Bool :=
  n.var == m.var && n.labels == m.labels && Expr.sameMap n.properties m.properties

/-- Sameness of relationships. -/
def RelationshipPattern.same (r s : RelationshipPattern) : Bool :=
  r.direction == s.direction && r.var == s.var && r.types == s.types &&
    r.length == s.length && Expr.sameMap r.properties s.properties

/-- Sameness of paths. -/
def Path.same (p q : Path) : Bool :=
  p.start.same q.start &&
    sameListBy (fun (r, n) (s, m) => r.same s && n.same m) p.steps q.steps

/-- Sameness of columns. -/
def Column.same (a b : Column) : Bool :=
  a.expr.same b.expr && a.alias? == b.alias?

/-- Sameness of selections. -/
def Selection.same : Selection → Selection → Bool
  | .everything as, .everything bs => sameListBy Column.same as bs
  | .items a as, .items b bs => a.same b && sameListBy Column.same as bs
  | _, _ => false

/-- Sameness of projections. -/
def Projection.same (p q : Projection) : Bool :=
  p.distinct == q.distinct && p.selection.same q.selection

/-- Sameness of sort keys. -/
def SortKey.same (a b : SortKey) : Bool :=
  a.expr.same b.expr && a.descending == b.descending

mutual

/-- Sameness of clauses. -/
def Clause.same : Clause → Clause → Bool
  | .matching optional p ps filter, .matching optional' q qs filter' =>
      optional == optional' && sameListBy Path.same (p :: ps) (q :: qs) &&
        Expr.sameFallback filter filter'
  | .passing p filter, .passing q filter' => p.same q && Expr.sameFallback filter filter'
  | .unwind a element, .unwind b element' => a.same b && element == element'
  | .create p, .create q => p.same q
  | .setKey var key a, .setKey var' key' b => var == var' && key == key' && a.same b
  | .delete detach a, .delete detach' b => detach == detach' && a.same b
  | .returning p, .returning q => p.same q
  | .orderBy as, .orderBy bs => sameListBy SortKey.same as bs
  | .skip a, .skip b => a.same b
  | .limit a, .limit b => a.same b
  | .subquery s, .subquery t => s.same t
  | .choice b, .choice c => b.same c
  | _, _ => false

/-- Sameness of conditionals. -/
def Choice.same : Choice → Choice → Bool
  | ⟨cases, fallback, columns⟩, ⟨cases', fallback', columns'⟩ =>
      Choice.sameCases cases cases' && fallback.same fallback' && columns == columns'

/-- Sameness case by case. -/
def Choice.sameCases : List (Expr × Statement) → List (Expr × Statement) → Bool
  | [], [] => true
  | (c, arm) :: rest, (c', arm') :: rest' =>
      c.same c' && arm.same arm' && Choice.sameCases rest rest'
  | _, _ => false

/-- Sameness of queries. -/
def Query.same : Query → Query → Bool
  | ⟨as⟩, ⟨bs⟩ => Clause.sameList as bs

/-- Sameness clause by clause. -/
def Clause.sameList : List Clause → List Clause → Bool
  | [], [] => true
  | a :: as, b :: bs => a.same b && Clause.sameList as bs
  | _, _ => false

/-- Sameness query by query. -/
def Query.sameList : List Query → List Query → Bool
  | [], [] => true
  | a :: as, b :: bs => a.same b && Query.sameList as bs
  | _, _ => false

/-- Sameness of statements. -/
def Statement.same : Statement → Statement → Bool
  | ⟨first, more, union⟩, ⟨first', more', union'⟩ =>
      first.same first' && Query.sameList more more' && union == union'

end

end GraphQuery
