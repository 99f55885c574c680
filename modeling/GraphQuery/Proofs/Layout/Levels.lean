import GraphQuery.Proofs.Building.Nested
import GraphQuery.Proofs.Layout.Balance
import GraphQuery.Proofs.Layout.Inline
import GraphQuery.Proofs.Rendering.Scope

/-!
# Levels of braces

The pieces of a query stand at levels: at the top level, or in one of the subquery bodies
that are nested in it. A level consists of lines, of the words that join queries and of
bodies, with a line break between any two of them. Only an empty query leaves nothing there.

Main statements: `Fragment.level_or_inline`, the pieces of a fragment are a level or a part
of a line, and `Fragment.balanced_pieces`.
-/

set_option autoImplicit false

namespace GraphQuery

open Piece (Balanced)

/-- Pieces that make up a level. If levels are uniform, all queries of a level are joined in
its mode. If they are filled, there is something between any two line breaks. -/
inductive BraceLevel (uniform filled : Prop) : UnionMode → List Piece → Prop where
  | nil {mode : UnionMode} (h : ¬ filled) : BraceLevel uniform filled mode []
  | line {mode : UnionMode} {words : String} {rest : List Piece} (hwords : LineWords words)
      (hrest : rest.all Piece.isInline = true) :
      BraceLevel uniform filled mode (.word words :: rest)
  | joint {mode joint : UnionMode} (h : uniform → joint = mode) :
      BraceLevel uniform filled mode [.word joint.words]
  | body {mode inner : UnionMode} {inside : List Piece}
      (h : BraceLevel uniform filled inner inside) :
      BraceLevel uniform filled mode (.openBody :: inside ++ [.closeBody])
  | glue {mode : UnionMode} {xs ys : List Piece} (hx : BraceLevel uniform filled mode xs)
      (hy : BraceLevel uniform filled mode ys) :
      BraceLevel uniform filled mode (xs ++ .lineBreak :: ys)

namespace BraceLevel

variable {uniform filled : Prop} {mode : UnionMode} {xs ys : List Piece}

/-- The bodies of a level open and close in pairs. -/
theorem balanced (h : BraceLevel uniform filled mode xs) : Balanced xs := by
  induction h with
  | nil _ => exact .nil
  | line _ hrest => exact (Balanced.of_inline hrest).inline_cons rfl
  | joint _ => exact Balanced.nil.inline_cons rfl
  | body _ ih => exact ih.body
  | glue _ _ ihx ihy => exact ihx.append ihy.lineBreak

/-- Two parts of a level with words that join queries between them. -/
theorem join (union : UnionMode) (h : uniform → union = mode)
    (hx : BraceLevel uniform filled mode xs) (hy : BraceLevel uniform filled mode ys) :
    BraceLevel uniform filled mode (xs ++ (union.pieces ++ ys)) :=
  hx.glue ((BraceLevel.joint h).glue hy)

end BraceLevel

/-- A clause without statements in it is a line of its level. -/
theorem Clause.level_of_isPlain {uniform filled : Prop} {mode : UnionMode} {c : Clause}
    (h : c.isPlain = true) (keepsScope : Bool) (supply : NameSupply) :
    BraceLevel uniform filled mode (c.pieces keepsScope supply).1 := by
  obtain ⟨words, rest, hwords, hrest, hpieces⟩ := Clause.exists_line h
  rw [hpieces]
  exact .line hwords hrest

namespace Choice

variable {uniform filled : Prop} {mode : UnionMode}

/-- The first line of a conditional computes its selector. -/
theorem level_selectorPieces (keepsScope : Bool) (selector : Identifier)
    (conditions : List Expr) :
    BraceLevel uniform filled mode (selectorPieces keepsScope selector conditions) := by
  have hinline := inline_selectorPieces keepsScope selector conditions
  exact .line (.of_ne (by decide)) (Bool.and_eq_true_iff.1 hinline).2

/-- The last line of a conditional returns its columns. -/
theorem level_returnPieces (columns : List Identifier) :
    BraceLevel uniform filled mode (returnPieces columns) := by
  have hinline := inline_returnPieces columns
  exact .line (.of_ne (by decide)) (Bool.and_eq_true_iff.1 hinline).2

/-- A guard takes two lines. -/
theorem level_guardPieces (keepsScope : Bool) (selector : Identifier) (number : Nat)
    {ys : List Piece} (hy : BraceLevel uniform filled mode ys) :
    BraceLevel uniform filled mode (guardPieces keepsScope selector number ++ ys) := by
  have hscope := inline_scopePieces keepsScope selector
  have hwith : LineWords "WITH " := .of_ne (by decide)
  have htest : (scopePieces keepsScope selector ++ [Piece.word " WHERE ", .selector selector,
      .word " = ", .word (Number.naturalText number)]).all Piece.isInline = true :=
    Piece.all_isInline_append hscope rfl
  have hlines : BraceLevel uniform filled mode _ :=
    (BraceLevel.line hwith hscope).glue ((BraceLevel.line hwith htest).glue hy)
  simpa [guardPieces] using hlines

end Choice

/-- Conditionals that mix no modes: no arm drops equal rows between its queries. -/
def Uniform (os : List Occurrence) : Prop :=
  ∀ o ∈ os, ∀ arm ∈ o.choice.arms, arm.isDistinctUnion = false

theorem Uniform.left {xs ys : List Occurrence} (h : Uniform (xs ++ ys)) : Uniform xs :=
  fun o ho => h o (List.mem_append_left ys ho)

theorem Uniform.right {xs ys : List Occurrence} (h : Uniform (xs ++ ys)) : Uniform ys :=
  fun o ho => h o (List.mem_append_right xs ho)

/-- Statements none of whose queries is empty. -/
def Occupied (ss : List Statement) : Prop := ∀ s ∈ ss, ∀ q ∈ s.queries, q.clauses ≠ []

theorem Occupied.left {xs ys : List Statement} (h : Occupied (xs ++ ys)) : Occupied xs :=
  fun s hs => h s (List.mem_append_left ys hs)

theorem Occupied.right {xs ys : List Statement} (h : Occupied (xs ++ ys)) : Occupied ys :=
  fun s hs => h s (List.mem_append_right xs hs)

/-- A query that is not empty, nor is any query of a statement within. -/
structure Query.Occupied (q : Query) : Prop where
  clauses_ne : q.clauses ≠ []
  nested : GraphQuery.Occupied q.nested

/-- The queries of a statement without empty queries at any level. -/
theorem Occupied.queries {s : Statement} (h : Occupied s.nested) :
    ∀ q ∈ s.queries, q.Occupied := by
  intro q hq
  refine ⟨h s s.mem_nested_self q hq, fun t ht => h t ?_⟩
  exact Statement.mem_nested_iff.2 (.inr ⟨q, hq, Query.mem_nested_iff.1 ht⟩)

mutual

/-- The pieces of a clause are a part of a level. -/
theorem Clause.level_pieces {uniform filled : Prop} (mode : UnionMode) (follows inside : Bool) :
    ∀ (c : Clause) (number : Nat) (supply : NameSupply),
      (uniform → Uniform (c.occurrences follows inside number)) → (filled → Occupied c.nested) →
        BraceLevel uniform filled mode (c.pieces follows supply).1
  | .subquery body, number, supply, hu, hf => by
      exact .body (Statement.level_pieces false body number supply hu hf)
  | .choice arms, number, supply, hu, hf =>
      Choice.level_pieces mode follows inside arms number supply hu hf
  | .matching .., _, supply, _, _ => Clause.level_of_isPlain rfl follows supply
  | .passing .., _, supply, _, _ => Clause.level_of_isPlain rfl follows supply
  | .unwind .., _, supply, _, _ => Clause.level_of_isPlain rfl follows supply
  | .create .., _, supply, _, _ => Clause.level_of_isPlain rfl follows supply
  | .setKey .., _, supply, _, _ => Clause.level_of_isPlain rfl follows supply
  | .delete .., _, supply, _, _ => Clause.level_of_isPlain rfl follows supply
  | .returning .., _, supply, _, _ => Clause.level_of_isPlain rfl follows supply
  | .orderBy .., _, supply, _, _ => Clause.level_of_isPlain rfl follows supply
  | .skip .., _, supply, _, _ => Clause.level_of_isPlain rfl follows supply
  | .limit .., _, supply, _, _ => Clause.level_of_isPlain rfl follows supply

/-- A conditional is two lines of its level with a body between them. -/
theorem Choice.level_pieces {uniform filled : Prop} (mode : UnionMode) (follows inside : Bool) :
    ∀ (c : Choice) (number : Nat) (supply : NameSupply),
      (uniform → Uniform (c.occurrences follows inside number)) → (filled → Occupied c.nested) →
        BraceLevel uniform filled mode (c.pieces follows supply).1
  | ⟨cases, fallback, columns⟩, number, supply, hu, hf => by
      have harms : uniform → ∀ arm ∈ cases.map Prod.snd ++ [fallback],
          arm.isDistinctUnion = false := fun huniform => hu huniform _ List.mem_cons_self
      have hinner : uniform → Uniform (Choice.caseOccurrences inside (number + 1) cases ++
          fallback.occurrences inside (number + 1 + Choice.caseCount cases)) :=
        fun huniform o ho => hu huniform o (List.mem_cons_of_mem _ ho)
      have hlast := Statement.level_armPieces (Choice.level_guardPieces follows supply.next
        cases.length) inside fallback _ (supply.after (1 + Choice.caseCount cases))
        (fun h => (hinner h).right) (fun h => harms h fallback (by simp)) (fun h => (hf h).right)
      have hbody := Choice.level_casePieces
        (fun n _ => Choice.level_guardPieces follows supply.next n) inside cases _
        (supply.after 1) 0 (fun h => (hinner h).left)
        (fun h c hc => harms h c.2 (List.mem_append_left _ (List.mem_map_of_mem hc)))
        (fun h => (hf h).left) _ hlast
      have hlines : BraceLevel uniform filled mode _ :=
        (Choice.level_selectorPieces follows supply.next (cases.map Prod.fst)).glue
          ((BraceLevel.body hbody).glue (Choice.level_returnPieces columns))
      rw [Choice.fst_pieces]
      simpa using hlines

/-- The arms with a condition stand at one level, each with the words that join it to the next. -/
theorem Choice.level_casePieces {uniform filled : Prop} {guard : Nat → List Piece}
    (hguard : ∀ n ys, BraceLevel uniform filled .all ys →
      BraceLevel uniform filled .all (guard n ++ ys)) (inside : Bool) :
    ∀ (cases : List (Expr × Statement)) (number : Nat) (supply : NameSupply) (arm : Nat),
      (uniform → Uniform (Choice.caseOccurrences inside number cases)) →
        (uniform → ∀ c ∈ cases, c.2.isDistinctUnion = false) →
          (filled → Occupied (Choice.caseNested cases)) → ∀ ys, BraceLevel uniform filled .all ys →
            BraceLevel uniform filled .all ((Choice.casePieces guard supply arm cases).1 ++ ys)
  | [], _, _, _, _, _, _, _, hy => hy
  | (condition, statement) :: rest, number, supply, arm, hu, harms, hf, ys, hy => by
      have hhere := Statement.level_armPieces (hguard arm _) inside statement number supply
        (fun h => (hu h).left) (fun h => harms h _ List.mem_cons_self) (fun h => (hf h).left)
      have hrest := Choice.level_casePieces hguard inside rest _
        (supply.after statement.choiceCount) (arm + 1) (fun h => (hu h).right)
        (fun h c hc => harms h c (List.mem_cons_of_mem _ hc)) (fun h => (hf h).right) ys hy
      rw [Choice.fst_casePieces, List.append_assoc, List.append_assoc]
      exact hhere.join .all (fun _ => rfl) hrest

/-- An arm is a part of the level of all arms, each of its queries behind the guard. -/
theorem Statement.level_armPieces {uniform filled : Prop} {guard : List Piece}
    (hguard : ∀ {ys}, BraceLevel uniform filled .all ys →
      BraceLevel uniform filled .all (guard ++ ys)) (inside : Bool) :
    ∀ (s : Statement) (number : Nat) (supply : NameSupply),
      (uniform → Uniform (s.occurrences inside number)) →
        (uniform → s.isDistinctUnion = false) → (filled → Occupied s.nested) →
          BraceLevel uniform filled .all (s.armPieces guard supply).1
  | ⟨first, more, union⟩, number, supply, hu, hunion, hf => by
      have hfirst : BraceLevel uniform filled .all (guard ++ (first.pieces supply).1) :=
        hguard (Query.level_pieces .all inside first number supply (fun h => (hu h).left)
          fun h => (hf h).queries first List.mem_cons_self)
      rw [Statement.fst_armPieces]
      cases more with
      | nil =>
          rw [Query.joinedPieces, List.append_nil]
          exact hfirst
      | cons second others =>
          -- the mode of the arm has to be that of the level around it
          have hall : uniform → union = .all := fun h =>
            (Statement.single_or_all (hunion h)).resolve_left (List.cons_ne_nil second others)
          exact Query.level_joinedPieces (fun hx hy => by
              rw [List.append_assoc]
              exact hx.join union hall (hguard hy)) inside (second :: others) _ _
            (fun h => (hu h).right) (fun h q hq => (hf h).queries q (List.mem_cons_of_mem _ hq)) _
            hfirst

/-- The clauses of a query stand at one level. A query without clauses leaves its level empty. -/
theorem Query.level_pieces {uniform filled : Prop} (mode : UnionMode) (inside : Bool) :
    ∀ (q : Query) (number : Nat) (supply : NameSupply),
      (uniform → Uniform (q.occurrencesFrom inside number)) → (filled → q.Occupied) →
        BraceLevel uniform filled mode (q.pieces supply).1
  | ⟨[]⟩, _, _, _, hf => .nil fun h => (hf h).clauses_ne rfl
  | ⟨first :: rest⟩, number, supply, hu, hf => by
      have hfirst := Clause.level_pieces mode false inside first number supply
        (fun h => (hu h).left) fun h => (hf h).nested.left
      rw [Query.fst_pieces]
      exact Clause.level_laterPieces rest _ _ (fun h => (hu h).right)
        (fun h => (hf h).nested.right) _ hfirst

-- The pieces of lists begin with a break, so they are a level only behind another one.
theorem Clause.level_laterPieces {uniform filled : Prop} {mode : UnionMode} :
    ∀ (cs : List Clause) (number : Nat) (supply : NameSupply),
      (uniform → Uniform (Clause.laterOccurrences number cs)) →
        (filled → Occupied (Clause.listNested cs)) → ∀ xs, BraceLevel uniform filled mode xs →
          BraceLevel uniform filled mode (xs ++ (Clause.laterPieces supply cs).1)
  | [], _, _, _, _, xs, hx => by
      rw [Clause.laterPieces, List.append_nil]
      exact hx
  | clause :: rest, number, supply, hu, hf, xs, hx => by
      have hclause := Clause.level_pieces mode true true clause number supply
        (fun h => (hu h).left) fun h => (hf h).left
      have hrest := Clause.level_laterPieces rest _ (supply.after clause.choiceCount)
        (fun h => (hu h).right) (fun h => (hf h).right) _ (hx.glue hclause)
      rw [Clause.fst_laterPieces]
      simpa using hrest

/-- Further queries join the level before them. -/
theorem Query.level_joinedPieces {uniform filled : Prop} {mode : UnionMode} {joint : List Piece}
    (hjoint : ∀ {xs ys}, BraceLevel uniform filled mode xs → BraceLevel uniform filled mode ys →
      BraceLevel uniform filled mode (xs ++ (joint ++ ys))) (inside : Bool) :
    ∀ (qs : List Query) (number : Nat) (supply : NameSupply),
      (uniform → Uniform (Query.listOccurrences inside number qs)) →
        (filled → ∀ q ∈ qs, q.Occupied) → ∀ xs, BraceLevel uniform filled mode xs →
          BraceLevel uniform filled mode (xs ++ (Query.joinedPieces joint supply qs).1)
  | [], _, _, _, _, xs, hx => by
      rw [Query.joinedPieces, List.append_nil]
      exact hx
  | query :: rest, number, supply, hu, hf, xs, hx => by
      have hquery := Query.level_pieces mode inside query number supply (fun h => (hu h).left)
        fun h => hf h query List.mem_cons_self
      have hrest := Query.level_joinedPieces hjoint inside rest _
        (supply.after query.choiceCount) (fun h => (hu h).right)
        (fun h q hq => hf h q (List.mem_cons_of_mem _ hq)) _ (hjoint hx hquery)
      rw [Query.fst_joinedPieces]
      simpa using hrest

/-- The queries of a statement stand at one level, joined in the mode of the statement. -/
theorem Statement.level_pieces {uniform filled : Prop} (inside : Bool) :
    ∀ (s : Statement) (number : Nat) (supply : NameSupply),
      (uniform → Uniform (s.occurrences inside number)) → (filled → Occupied s.nested) →
        BraceLevel uniform filled s.union (s.pieces supply).1
  | ⟨first, more, union⟩, number, supply, hu, hf => by
      have hfirst := Query.level_pieces union inside first number supply (fun h => (hu h).left)
        fun h => (hf h).queries first List.mem_cons_self
      have hmore := Query.level_joinedPieces (BraceLevel.join union fun _ => rfl) inside more _
        (supply.after first.choiceCount) (fun h => (hu h).right)
        (fun h q hq => (hf h).queries q (List.mem_cons_of_mem _ hq)) _ hfirst
      rw [Statement.fst_pieces]
      exact hmore

end

namespace Fragment

/-- The pieces of a fragment with a conditional or a body are a level. Those of other
fragments stand on one line. -/
theorem level_or_inline (uniform : Prop) (f : Fragment) (supply : NameSupply)
    (h : uniform → Uniform f.occurrences) :
    (∃ mode, BraceLevel uniform False mode (f.pieces supply).1) ∨
      (f.pieces supply).1.all Piece.isInline = true := by
  cases f with
  | expr e => exact .inr e.inline_pieces
  | node n => exact .inr n.inline_pieces
  | relationship r => exact .inr r.inline_pieces
  | length l => exact .inr (inline_lengthPieces (some l))
  | path p => exact .inr p.inline_pieces
  | projection p => exact .inr p.inline_pieces
  | clause c => exact .inl ⟨.all, c.level_pieces .all false false 0 supply h False.elim⟩
  | query q => exact .inl ⟨.all, q.level_pieces .all false 0 supply h False.elim⟩
  | statement s => exact .inl ⟨s.union, s.level_pieces false 0 supply h False.elim⟩

/-- The bodies of a fragment open and close in pairs. -/
theorem balanced_pieces (f : Fragment) (supply : NameSupply) : Balanced (f.pieces supply).1 := by
  rcases f.level_or_inline False supply False.elim with ⟨mode, hlevel⟩ | hinline
  · exact hlevel.balanced
  · exact .of_inline hinline

end Fragment

end GraphQuery
