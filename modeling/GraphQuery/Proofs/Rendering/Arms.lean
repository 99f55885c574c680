import GraphQuery.Checked.Statement
import GraphQuery.Proofs.Rendering.Draws

/-!
# Arms of a conditional

The body of a conditional is one union of the queries of all its arms. Each query stands
behind a guard with the number of its arm and is joined to the query before it in the mode
of its arm, or, where an arm begins, by the words that keep equal rows.

Main statement: `Choice.pieces_eq`.
-/

set_option autoImplicit false

namespace GraphQuery

/-- A query of an arm, with the number of the arm and what joins it to the query before. -/
structure ArmQuery where
  joint : UnionMode
  number : Nat
  query : Query

/-- The queries of an arm. The first one is joined to the arm before. -/
def Statement.armQueries (number : Nat) (s : Statement) : List ArmQuery :=
  ⟨.all, number, s.first⟩ :: s.more.map fun query => ⟨s.union, number, query⟩

/-- An arm that keeps equal rows is one query, or joins its queries by the words that do. -/
theorem Statement.single_or_all {s : Statement} (h : s.isDistinctUnion = false) :
    s.more = [] ∨ s.union = .all := by
  obtain ⟨first, more, union⟩ := s
  cases more with
  | nil => exact .inl rfl
  | cons second rest =>
      cases union with
      | all => exact .inr rfl
      | distinct => cases h

/-- All queries of an arm that keeps equal rows are joined in the same way. -/
theorem Statement.armQueries_of_all {s : Statement} (h : s.isDistinctUnion = false)
    (number : Nat) :
    s.armQueries number = s.queries.map fun query => ⟨.all, number, query⟩ := by
  rw [armQueries, queries, List.map_cons]
  rcases Statement.single_or_all h with hmore | hunion
  · rw [hmore]
    rfl
  · rw [hunion]

namespace Choice

/-- The queries of arms that are numbered from `number` on. -/
def queriesFrom (number : Nat) : List Statement → List ArmQuery
  | [] => []
  | arm :: rest => arm.armQueries number ++ queriesFrom (number + 1) rest

/-- The queries of all arms in order. -/
def armQueries (c : Choice) : List ArmQuery := queriesFrom 0 c.arms

/-- Pieces of queries of arms, each behind its guard, with the mode of the union before it. -/
def guardedPieces (guard : Nat → List Piece) (supply : NameSupply) :
    List ArmQuery → List (UnionMode × List Piece)
  | [] => []
  | q :: rest =>
      (q.joint, guard q.number ++ (q.query.pieces supply).1) ::
        guardedPieces guard (supply.after q.query.choiceCount) rest

/-- Groups of pieces with the words that join each to the one before it. -/
def joinedPieces : List (UnionMode × List Piece) → List Piece
  | [] => []
  | (mode, ps) :: rest => mode.pieces ++ ps ++ joinedPieces rest

/-- Groups of pieces with the words of the union in the gaps. -/
def unionPieces : List (UnionMode × List Piece) → List Piece
  | [] => []
  | (_, ps) :: rest => ps ++ joinedPieces rest

theorem joinedPieces_append (xs ys : List (UnionMode × List Piece)) :
    joinedPieces (xs ++ ys) = joinedPieces xs ++ joinedPieces ys := by
  induction xs with
  | nil => rfl
  | cons x rest ih =>
      obtain ⟨mode, ps⟩ := x
      simp only [List.cons_append, joinedPieces, ih, List.append_assoc]

variable (guard : Nat → List Piece)

/-- The queries of later arms draw their selectors behind those of the earlier ones. -/
theorem guardedPieces_append (xs ys : List ArmQuery) (supply : NameSupply) :
    guardedPieces guard supply (xs ++ ys) = guardedPieces guard supply xs ++
      guardedPieces guard (supply.after (Query.listCount (xs.map ArmQuery.query))) ys := by
  induction xs generalizing supply with
  | nil => rfl
  | cons q rest ih =>
      simp only [List.cons_append, guardedPieces, ih, List.map_cons, Query.listCount,
        NameSupply.after_after]

/-- The queries of an arm have as many conditionals as the arm. -/
theorem listCount_armQueries (number : Nat) (arm : Statement) :
    Query.listCount ((arm.armQueries number).map ArmQuery.query) = arm.choiceCount := by
  obtain ⟨first, more, union⟩ := arm
  rw [Statement.armQueries, List.map_cons, List.map_map]
  show first.choiceCount + Query.listCount (more.map id) = _
  rw [List.map_id, Statement.choiceCount]

/-- Further queries of an arm, each behind the words of the union and the guard. -/
theorem fst_joinedPieces (number : Nat) (union : UnionMode) (queries : List Query)
    (supply : NameSupply) :
    (Query.joinedPieces (union.pieces ++ guard number) supply queries).1 =
      joinedPieces (guardedPieces guard supply
        (queries.map fun query => ⟨union, number, query⟩)) := by
  induction queries generalizing supply with
  | nil => rfl
  | cons query rest ih =>
      simp only [Query.fst_joinedPieces, ih, List.map_cons, guardedPieces, joinedPieces,
        List.append_assoc]

/-- An arm behind the words that join it to the arm before. -/
theorem fst_armPieces (number : Nat) (arm : Statement) (supply : NameSupply) :
    UnionMode.all.pieces ++ (arm.armPieces (guard number) supply).1 =
      joinedPieces (guardedPieces guard supply (arm.armQueries number)) := by
  obtain ⟨first, more, union⟩ := arm
  have hmore := fst_joinedPieces guard number union more (supply.after first.choiceCount)
  simp only [Statement.fst_armPieces, Statement.armQueries, hmore, guardedPieces, joinedPieces,
    List.append_assoc]

/-- All arms, numbered from `number` on, behind the words that join them to an arm before. -/
theorem fst_allPieces (number : Nat) (cases : List (Expr × Statement)) (fallback : Statement)
    (supply : NameSupply) :
    UnionMode.all.pieces ++ ((casePieces guard supply number cases).1 ++
        (fallback.armPieces (guard (number + cases.length))
          (supply.after (caseCount cases))).1) =
      joinedPieces (guardedPieces guard supply
        (queriesFrom number (cases.map Prod.snd ++ [fallback]))) := by
  induction cases generalizing number supply with
  | nil =>
      have hlast := fst_armPieces guard number fallback supply
      simpa [casePieces, queriesFrom, caseCount, NameSupply.after_zero] using hlast
  | cons c rest ih =>
      obtain ⟨condition, arm⟩ := c
      have harm := fst_armPieces guard number arm supply
      have hrest := ih (number + 1) (supply.after arm.choiceCount)
      rw [NameSupply.after_after, Nat.add_right_comm] at hrest
      simp only [List.map_cons, List.cons_append, queriesFrom, guardedPieces_append,
        listCount_armQueries, joinedPieces_append, ← harm, ← hrest, fst_casePieces, caseCount,
        List.length_cons, Nat.add_assoc, List.append_assoc]

/-- The pieces of a conditional: its selector, the union of the guarded queries of its arms
in a subquery, and its columns. -/
theorem pieces_eq (keepsScope : Bool) (supply : NameSupply) (c : Choice) :
    (c.pieces keepsScope supply).1 =
      selectorPieces keepsScope supply.next c.conditions ++ .lineBreak :: .openBody ::
        (unionPieces (guardedPieces (guardPieces keepsScope supply.next) supply.advance
          c.armQueries) ++ .closeBody :: .lineBreak :: returnPieces c.columns) := by
  obtain ⟨cases, fallback, columns⟩ := c
  have harms := fst_allPieces (guardPieces keepsScope supply.next) 0 cases fallback (supply.after 1)
  rw [Nat.zero_add, NameSupply.after_after] at harms
  -- the first arm is joined to nothing, so its words are the ones in front
  have hunion : (casePieces (guardPieces keepsScope supply.next) (supply.after 1) 0 cases).1 ++
      (fallback.armPieces (guardPieces keepsScope supply.next cases.length)
        (supply.after (1 + caseCount cases))).1 =
      unionPieces (guardedPieces (guardPieces keepsScope supply.next) supply.advance
        (⟨cases, fallback, columns⟩ : Choice).armQueries) := by
    refine List.append_cancel_left (harms.trans ?_)
    cases cases with
    | nil => exact List.append_assoc _ _ _
    | cons first rest => exact List.append_assoc _ _ _
  rw [fst_pieces, ← hunion]
  simp only [conditions, List.append_assoc, List.cons_append]

end Choice

end GraphQuery
