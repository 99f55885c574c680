import GraphQuery.Proofs.Merging.Columns

/-!
# Statements within statements

A statement holds others: the bodies of its subqueries and the arms of its conditionals, which
hold statements again. Replacing placeholders replaces them in each of these statements, and
leaves the order of the statements, their columns and the words of their clauses alone.

Main statements: `Statement.mem_nested_iff` and `Statement.nested_mapPlaceholders`.
-/

set_option autoImplicit false

namespace GraphQuery

/-! ## Nested statements -/

/-- Statements that a clause holds itself. -/
def Clause.bodies : Clause → List Statement
  | .subquery body => [body]
  | .choice arms => arms.arms
  | _ => []

mutual

/-- Statements within a clause, those of a body behind the body. -/
def Clause.nested : Clause → List Statement
  | .subquery body => body.nested
  | .choice arms => arms.nested
  | _ => []

/-- Statements within a conditional. -/
def Choice.nested : Choice → List Statement
  | ⟨cases, fallback, _⟩ => Choice.caseNested cases ++ fallback.nested

/-- Statements within the arms that have a condition. -/
def Choice.caseNested : List (Expr × Statement) → List Statement
  | [] => []
  | (_, arm) :: rest => arm.nested ++ Choice.caseNested rest

/-- Statements within a query. -/
def Query.nested : Query → List Statement
  | ⟨clauses⟩ => Clause.listNested clauses

/-- Statements within several clauses. -/
def Clause.listNested : List Clause → List Statement
  | [] => []
  | clause :: rest => clause.nested ++ Clause.listNested rest

/-- Statements within several queries. -/
def Query.listNested : List Query → List Statement
  | [] => []
  | query :: rest => query.nested ++ Query.listNested rest

/-- A statement and, behind it, those within it. -/
def Statement.nested : Statement → List Statement
  | ⟨first, more, union⟩ => ⟨first, more, union⟩ :: (first.nested ++ Query.listNested more)

end

theorem Choice.caseNested_eq_flatMap (cases : List (Expr × Statement)) :
    Choice.caseNested cases = (cases.map Prod.snd).flatMap Statement.nested := by
  induction cases with
  | nil => rfl
  | cons case rest ih =>
      obtain ⟨condition, arm⟩ := case
      rw [Choice.caseNested, ih, List.map_cons, List.flatMap_cons]

/-- The statements within a conditional are those of its arms. -/
theorem Choice.nested_eq_flatMap (c : Choice) : c.nested = c.arms.flatMap Statement.nested := by
  obtain ⟨cases, fallback, columns⟩ := c
  rw [Choice.nested, Choice.caseNested_eq_flatMap, Choice.arms, List.flatMap_append,
    List.flatMap_singleton]

/-- The statements within a clause are those of the statements that it holds itself. -/
theorem Clause.nested_eq_flatMap (c : Clause) : c.nested = c.bodies.flatMap Statement.nested := by
  cases c with
  | subquery body => rw [Clause.nested, Clause.bodies, List.flatMap_singleton]
  | choice arms => rw [Clause.nested, Clause.bodies, arms.nested_eq_flatMap]
  | matching _ _ _ _ | passing _ _ | unwind _ _ | create _ | setKey _ _ _ | delete _ _
  | returning _ | orderBy _ | skip _ | limit _ => rfl

theorem Clause.listNested_eq_flatMap (cs : List Clause) :
    Clause.listNested cs = cs.flatMap Clause.nested := by
  induction cs with
  | nil => rfl
  | cons clause rest ih => rw [Clause.listNested, ih, List.flatMap_cons]

/-- The statements within queries are those within their clauses. -/
theorem Query.listNested_eq_flatMap (qs : List Query) :
    Query.listNested qs = (qs.flatMap Query.clauses).flatMap Clause.nested := by
  induction qs with
  | nil => rfl
  | cons query rest ih =>
      obtain ⟨clauses⟩ := query
      rw [Query.listNested, ih, List.flatMap_cons, List.flatMap_append, Query.nested,
        Clause.listNested_eq_flatMap]

/-- A statement stands before those within its clauses. -/
theorem Statement.nested_eq_cons (s : Statement) :
    s.nested = s :: (s.queries.flatMap Query.clauses).flatMap Clause.nested := by
  rw [← Query.listNested_eq_flatMap]
  obtain ⟨first, more, union⟩ := s
  rfl

/-- A statement within a query is within one of its clauses. -/
theorem Query.mem_nested_iff {t : Statement} {q : Query} :
    t ∈ q.nested ↔ ∃ c ∈ q.clauses, t ∈ c.nested := by
  obtain ⟨clauses⟩ := q
  rw [Query.nested, Clause.listNested_eq_flatMap, List.mem_flatMap]

/-- A statement within a clause is within one of the statements that the clause holds. -/
theorem Clause.mem_nested_iff {t : Statement} {c : Clause} :
    t ∈ c.nested ↔ ∃ body ∈ c.bodies, t ∈ body.nested := by
  rw [c.nested_eq_flatMap, List.mem_flatMap]

/-- The statements within a statement are itself and those within its clauses. -/
theorem Statement.mem_nested_iff {t s : Statement} :
    t ∈ s.nested ↔ t = s ∨ ∃ q ∈ s.queries, ∃ c ∈ q.clauses, t ∈ c.nested := by
  rw [s.nested_eq_cons, List.mem_cons, List.mem_flatMap]
  refine or_congr_right ⟨?_, ?_⟩
  · rintro ⟨c, hc, ht⟩
    obtain ⟨q, hq, hclause⟩ := List.mem_flatMap.1 hc
    exact ⟨q, hq, c, hclause, ht⟩
  · rintro ⟨q, hq, c, hc, ht⟩
    exact ⟨c, List.mem_flatMap.2 ⟨q, hq, hc⟩, ht⟩

theorem Statement.mem_nested_self (s : Statement) : s ∈ s.nested :=
  Statement.mem_nested_iff.2 (Or.inl rfl)

/-! ## Replacing placeholders -/

section Replacing

variable (f : Placeholder → Placeholder)

mutual

/-- The statements within a clause have their placeholders replaced where they stand. -/
theorem Clause.nested_mapPlaceholders : ∀ c : Clause,
    (c.mapPlaceholders f).nested = c.nested.map (Statement.mapPlaceholders f)
  | .subquery body => by rw [Clause.mapPlaceholders, Clause.nested, Clause.nested,
      body.nested_mapPlaceholders]
  | .choice arms => by rw [Clause.mapPlaceholders, Clause.nested, Clause.nested,
      arms.nested_mapPlaceholders]
  | .matching .. => rfl
  | .passing .. => rfl
  | .unwind .. => rfl
  | .create .. => rfl
  | .setKey .. => rfl
  | .delete .. => rfl
  | .returning .. => rfl
  | .orderBy .. => rfl
  | .skip .. => rfl
  | .limit .. => rfl

theorem Choice.nested_mapPlaceholders : ∀ c : Choice,
    (c.mapPlaceholders f).nested = c.nested.map (Statement.mapPlaceholders f)
  | ⟨cases, fallback, columns⟩ => by
      rw [Choice.mapPlaceholders, Choice.nested, Choice.nested,
        Choice.caseNested_mapCases cases, fallback.nested_mapPlaceholders, List.map_append]

theorem Choice.caseNested_mapCases : ∀ cases : List (Expr × Statement),
    Choice.caseNested (Choice.mapCases f cases) =
      (Choice.caseNested cases).map (Statement.mapPlaceholders f)
  | [] => rfl
  | (condition, arm) :: rest => by
      rw [Choice.mapCases, Choice.caseNested, Choice.caseNested, arm.nested_mapPlaceholders,
        Choice.caseNested_mapCases rest, List.map_append]

theorem Query.nested_mapPlaceholders : ∀ q : Query,
    (q.mapPlaceholders f).nested = q.nested.map (Statement.mapPlaceholders f)
  | ⟨clauses⟩ => by
      rw [Query.mapPlaceholders, Query.nested, Query.nested, Clause.listNested_mapList clauses]

theorem Clause.listNested_mapList : ∀ cs : List Clause,
    Clause.listNested (Clause.mapList f cs) =
      (Clause.listNested cs).map (Statement.mapPlaceholders f)
  | [] => rfl
  | clause :: rest => by
      rw [Clause.mapList, Clause.listNested, Clause.listNested, clause.nested_mapPlaceholders,
        Clause.listNested_mapList rest, List.map_append]

theorem Query.listNested_mapList : ∀ qs : List Query,
    Query.listNested (Query.mapList f qs) =
      (Query.listNested qs).map (Statement.mapPlaceholders f)
  | [] => rfl
  | query :: rest => by
      rw [Query.mapList, Query.listNested, Query.listNested, query.nested_mapPlaceholders,
        Query.listNested_mapList rest, List.map_append]

/-- The statements within a statement have their placeholders replaced where they stand. -/
theorem Statement.nested_mapPlaceholders : ∀ s : Statement,
    (s.mapPlaceholders f).nested = s.nested.map (Statement.mapPlaceholders f)
  | ⟨first, more, union⟩ => by
      rw [Statement.nested, List.map_cons, List.map_append, ← first.nested_mapPlaceholders,
        ← Query.listNested_mapList more]
      rfl

end

/-- A query keeps the number and the order of its clauses. -/
theorem Query.clauses_mapPlaceholders (q : Query) :
    (q.mapPlaceholders f).clauses = q.clauses.map (Clause.mapPlaceholders f) := by
  obtain ⟨clauses⟩ := q
  exact Clause.mapList_eq_map f clauses

/-- A union keeps its mode. -/
theorem Statement.union_mapPlaceholders (s : Statement) :
    (s.mapPlaceholders f).union = s.union := by
  obtain ⟨first, more, union⟩ := s
  rfl

/-- Conditions and arms have their placeholders replaced case by case. -/
theorem Choice.cases_mapPlaceholders (c : Choice) :
    (c.mapPlaceholders f).cases =
      c.cases.map fun case => (case.1.mapPlaceholders f, case.2.mapPlaceholders f) := by
  obtain ⟨cases, fallback, columns⟩ := c
  rw [Choice.mapPlaceholders]
  induction cases with
  | nil => rfl
  | cons case rest ih =>
      obtain ⟨condition, arm⟩ := case
      rw [Choice.mapCases, List.map_cons, ← ih]

theorem Choice.conditions_mapPlaceholders (c : Choice) :
    (c.mapPlaceholders f).conditions = c.conditions.map (Expr.mapPlaceholders f) := by
  rw [Choice.conditions, Choice.cases_mapPlaceholders, Choice.conditions, List.map_map,
    List.map_map]
  rfl

/-- The arms of a conditional keep their number and order. -/
theorem Choice.arms_mapPlaceholders (c : Choice) :
    (c.mapPlaceholders f).arms = c.arms.map (Statement.mapPlaceholders f) := by
  rw [Choice.arms, Choice.cases_mapPlaceholders, Choice.arms, List.map_append, List.map_map,
    List.map_map]
  obtain ⟨cases, fallback, columns⟩ := c
  rfl

/-- The columns that are kept with a conditional stay as they are. -/
theorem Choice.columns_mapPlaceholders (c : Choice) :
    (c.mapPlaceholders f).columns = c.columns := by
  obtain ⟨cases, fallback, columns⟩ := c
  rfl

/-- Replacing placeholders neither loses the columns of a statement nor gives it any. -/
theorem Statement.columns_mapPlaceholders_ok_iff (s : Statement) (columns : List Identifier) :
    (s.mapPlaceholders f).columns = .ok columns ↔ s.columns = .ok columns :=
  ⟨Statement.columns_of_mapPlaceholders f, eq_ok_of_toOption (s.columns_mapPlaceholders f)⟩

/-- A conditional stays one, and no other clause becomes one. -/
theorem Clause.isChoice_mapPlaceholders (c : Clause) :
    (c.mapPlaceholders f).isChoice = c.isChoice := by
  cases c <;> rfl

/-- A clause keeps the words that it begins with. -/
theorem Clause.keyword_mapPlaceholders (c : Clause) :
    (c.mapPlaceholders f).keyword = c.keyword := by
  cases c with
  | matching optional first more filter => cases optional <;> rfl
  | delete detach subject => cases detach <;> rfl
  | passing _ _ | unwind _ _ | create _ | setKey _ _ _ | returning _ | orderBy _ | skip _
  | limit _ | subquery _ | choice _ => rfl

end Replacing

/-! ## Words of the clauses -/

/-- The words that the clauses of a query begin with. -/
def Query.keywords (q : Query) : List String := q.clauses.map Clause.keyword

/-- The words that the clauses of each query of a statement begin with. -/
def Statement.keywords (s : Statement) : List (List String) := s.queries.map Query.keywords

theorem Query.keywords_mapPlaceholders (f : Placeholder → Placeholder) (q : Query) :
    (q.mapPlaceholders f).keywords = q.keywords := by
  rw [Query.keywords, q.clauses_mapPlaceholders, List.map_map, Query.keywords]
  exact List.map_congr_left fun c _ => c.keyword_mapPlaceholders f

theorem Statement.keywords_mapPlaceholders (f : Placeholder → Placeholder) (s : Statement) :
    (s.mapPlaceholders f).keywords = s.keywords := by
  rw [Statement.keywords, s.queries_mapPlaceholders, List.map_map, Statement.keywords]
  exact List.map_congr_left fun q _ => q.keywords_mapPlaceholders f

end GraphQuery
