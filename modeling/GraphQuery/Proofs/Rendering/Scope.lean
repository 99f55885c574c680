import GraphQuery.Proofs.Rendering.Line

/-!
# Scope at a conditional

The clause that computes a selector hides every variable bound before it, unless it carries
them along. A conditional stands inside scope when variables may have been bound before it:
when it is not the first clause of its query, or when its query is an arm of a conditional
that itself stands inside scope.

Main statement: `Query.occurrence_written`, the text at every conditional of a query. It
depends on the place of the conditional among the clauses of its own query only, so the
first clause of an arm does not carry the scope along even when it stands inside scope
(`Query.scope_lost`).
-/

set_option autoImplicit false

namespace GraphQuery

/-- A conditional at its place in a query. -/
structure Occurrence where
  choice : Choice
  /-- Whether other clauses stand before it in its own query. -/
  follows : Bool
  /-- Whether it stands inside scope. -/
  inside : Bool
  /-- Number of conditionals whose selectors are drawn before its own. -/
  number : Nat

mutual

/-- Conditionals of a clause, in the order of their selectors. -/
def Clause.occurrences (follows inside : Bool) (number : Nat) : Clause → List Occurrence
  | .subquery body => body.occurrences false number
  | .choice arms => arms.occurrences follows inside number
  | _ => []

/-- A conditional and the conditionals of its arms, which stand inside scope if it does. -/
def Choice.occurrences (follows inside : Bool) (number : Nat) : Choice → List Occurrence
  | ⟨cases, fallback, columns⟩ =>
      ⟨⟨cases, fallback, columns⟩, follows, inside, number⟩ ::
        (Choice.caseOccurrences inside (number + 1) cases ++
          fallback.occurrences inside (number + 1 + Choice.caseCount cases))

/-- Conditionals of the arms that have a condition. -/
def Choice.caseOccurrences (inside : Bool) (number : Nat) :
    List (Expr × Statement) → List Occurrence
  | [] => []
  | (_, arm) :: rest =>
      arm.occurrences inside number ++
        Choice.caseOccurrences inside (number + arm.choiceCount) rest

/-- Conditionals of a query. Its first clause is inside scope if the query is. -/
def Query.occurrencesFrom (inside : Bool) (number : Nat) : Query → List Occurrence
  | ⟨[]⟩ => []
  | ⟨first :: rest⟩ =>
      first.occurrences false inside number ++
        Clause.laterOccurrences (number + first.choiceCount) rest

/-- Conditionals of the clauses after the first. -/
def Clause.laterOccurrences (number : Nat) : List Clause → List Occurrence
  | [] => []
  | clause :: rest =>
      clause.occurrences true true number ++
        Clause.laterOccurrences (number + clause.choiceCount) rest

/-- Conditionals of several queries. -/
def Query.listOccurrences (inside : Bool) (number : Nat) : List Query → List Occurrence
  | [] => []
  | query :: rest =>
      query.occurrencesFrom inside number ++
        Query.listOccurrences inside (number + query.choiceCount) rest

/-- Conditionals of a statement. -/
def Statement.occurrences (inside : Bool) (number : Nat) : Statement → List Occurrence
  | ⟨first, more, _⟩ =>
      first.occurrencesFrom inside number ++
        Query.listOccurrences inside (number + first.choiceCount) more

end

/-- Conditionals of a query, at every depth. -/
def Query.occurrences (q : Query) : List Occurrence := q.occurrencesFrom false 0

/-- Conditionals of a fragment, at every depth. A fragment by itself is not inside scope. -/
def Fragment.occurrences : Fragment → List Occurrence
  | .clause c => c.occurrences false false 0
  | .query q => q.occurrences
  | .statement s => s.occurrences false 0
  | _ => []

/-- Pieces that a rendering from `supply` has at a conditional. -/
def Occurrence.pieces (supply : NameSupply) (o : Occurrence) : List Piece :=
  (o.choice.pieces o.follows (supply.after o.number)).1

/-- Conditionals whose pieces begin in a list of pieces, in order and each at a place of its
own. -/
inductive Placed (supply : NameSupply) : List Occurrence → List Piece → Prop where
  | nil : Placed supply [] []
  | skip {os : List Occurrence} {ps : List Piece} (p : Piece) (h : Placed supply os ps) :
      Placed supply os (p :: ps)
  | here {o : Occurrence} {os : List Occurrence} {p : Piece} {ps : List Piece}
      (hpieces : o.pieces supply <+: p :: ps) (h : Placed supply os ps) :
      Placed supply (o :: os) (p :: ps)

namespace Placed

variable {supply : NameSupply} {os more : List Occurrence} {ps qs : List Piece}

theorem empty (ps : List Piece) : Placed supply [] ps := by
  induction ps with
  | nil => exact .nil
  | cons p rest ih => exact .skip p ih

theorem append (h : Placed supply os ps) (hmore : Placed supply more qs) :
    Placed supply (os ++ more) (ps ++ qs) := by
  induction h with
  | nil => exact hmore
  | skip p _ ih => exact .skip p ih
  | here hpieces _ ih => exact .here (hpieces.trans (List.prefix_append _ qs)) ih

/-- Nothing begins in the pieces in front. -/
theorem behind (h : Placed supply os ps) (front : List Piece) : Placed supply os (front ++ ps) :=
  (empty front).append h

/-- Nothing begins in the pieces behind. -/
theorem before (h : Placed supply os ps) (rest : List Piece) : Placed supply os (ps ++ rest) := by
  rw [← List.append_nil os]
  exact h.append (empty rest)

/-- A conditional begins with pieces in which no other one does. -/
theorem cons {o : Occurrence} (hne : qs ≠ []) (hpieces : o.pieces supply <+: qs ++ ps)
    (h : Placed supply os ps) : Placed supply (o :: os) (qs ++ ps) := by
  cases qs with
  | nil => exact absurd rfl hne
  | cons q rest => exact .here hpieces (h.behind rest)

theorem isInfix (h : Placed supply os ps) : ∀ o ∈ os, o.pieces supply <:+: ps := by
  induction h with
  | nil => intro o ho; cases ho
  | skip p _ ih => exact fun o ho => List.infix_cons (ih o ho)
  | here hpieces _ ih =>
      intro o ho
      rcases List.mem_cons.1 ho with rfl | hlater
      · exact hpieces.isInfix
      · exact List.infix_cons (ih o hlater)

end Placed

mutual

theorem Clause.placed_pieces (supply : NameSupply) (follows inside : Bool) :
    ∀ (c : Clause) (number : Nat), Placed supply (c.occurrences follows inside number)
      (c.pieces follows (supply.after number)).1
  | .subquery body, number =>
      ((Statement.placed_pieces supply false body number).before [.closeBody]).behind [.openBody]
  | .choice arms, number => Choice.placed_pieces supply follows inside arms number
  | .matching .., _ => .empty _
  | .passing .., _ => .empty _
  | .unwind .., _ => .empty _
  | .create .., _ => .empty _
  | .setKey .., _ => .empty _
  | .delete .., _ => .empty _
  | .returning .., _ => .empty _
  | .orderBy .., _ => .empty _
  | .skip .., _ => .empty _
  | .limit .., _ => .empty _

theorem Choice.placed_pieces (supply : NameSupply) (follows inside : Bool) :
    ∀ (c : Choice) (number : Nat), Placed supply (c.occurrences follows inside number)
      (c.pieces follows (supply.after number)).1
  | ⟨cases, fallback, columns⟩, number => by
      have hcases := Choice.placed_casePieces supply
        (Choice.guardPieces follows (supply.after number).next) inside cases (number + 1) 0
      have hlast := Statement.placed_armPieces supply
        (Choice.guardPieces follows (supply.after number).next cases.length) inside fallback
        (number + 1 + Choice.caseCount cases)
      have hinner := ((hcases.append hlast).before
        (.closeBody :: .lineBreak :: Choice.returnPieces columns)).behind [.lineBreak, .openBody]
      have hpieces := Choice.fst_pieces (supply.after number) follows cases fallback columns
      rw [NameSupply.after_after, NameSupply.after_after, ← Nat.add_assoc, List.append_assoc,
        List.append_assoc] at hpieces
      rw [List.append_assoc] at hinner
      -- the conditional begins with its selector, the others begin behind it
      rw [hpieces]
      exact .cons (by simp [Choice.selectorPieces]) (hpieces ▸ List.prefix_rfl) hinner

theorem Choice.placed_casePieces (supply : NameSupply) (guard : Nat → List Piece)
    (inside : Bool) :
    ∀ (cases : List (Expr × Statement)) (number arm : Nat),
      Placed supply (Choice.caseOccurrences inside number cases)
        (Choice.casePieces guard (supply.after number) arm cases).1
  | [], _, _ => .nil
  | (condition, statement) :: rest, number, arm => by
      have hhere := Statement.placed_armPieces supply (guard arm) inside statement number
      have hrest := Choice.placed_casePieces supply guard inside rest
        (number + statement.choiceCount) (arm + 1)
      rw [Choice.fst_casePieces, NameSupply.after_after]
      exact (hhere.before _).append hrest

theorem Statement.placed_armPieces (supply : NameSupply) (guard : List Piece) (inside : Bool) :
    ∀ (s : Statement) (number : Nat), Placed supply (s.occurrences inside number)
      (s.armPieces guard (supply.after number)).1
  | ⟨first, more, union⟩, number => by
      have hfirst := Query.placed_pieces supply inside first number
      have hmore := Query.placed_joinedPieces supply (union.pieces ++ guard) inside more
        (number + first.choiceCount)
      rw [Statement.fst_armPieces, NameSupply.after_after]
      exact (hfirst.behind guard).append hmore

theorem Query.placed_pieces (supply : NameSupply) (inside : Bool) :
    ∀ (q : Query) (number : Nat), Placed supply (q.occurrencesFrom inside number)
      (q.pieces (supply.after number)).1
  | ⟨[]⟩, _ => .nil
  | ⟨first :: rest⟩, number => by
      have hfirst := Clause.placed_pieces supply false inside first number
      have hrest := Clause.placed_laterPieces supply rest (number + first.choiceCount)
      rw [Query.fst_pieces, NameSupply.after_after]
      exact hfirst.append hrest

theorem Clause.placed_laterPieces (supply : NameSupply) :
    ∀ (cs : List Clause) (number : Nat), Placed supply (Clause.laterOccurrences number cs)
      (Clause.laterPieces (supply.after number) cs).1
  | [], _ => .nil
  | clause :: rest, number => by
      have hclause := Clause.placed_pieces supply true true clause number
      have hrest := Clause.placed_laterPieces supply rest (number + clause.choiceCount)
      rw [Clause.fst_laterPieces, NameSupply.after_after]
      exact (hclause.behind [.lineBreak]).append hrest

theorem Query.placed_joinedPieces (supply : NameSupply) (joint : List Piece) (inside : Bool) :
    ∀ (qs : List Query) (number : Nat), Placed supply (Query.listOccurrences inside number qs)
      (Query.joinedPieces joint (supply.after number) qs).1
  | [], _ => .nil
  | query :: rest, number => by
      have hquery := Query.placed_pieces supply inside query number
      have hrest := Query.placed_joinedPieces supply joint inside rest
        (number + query.choiceCount)
      rw [Query.fst_joinedPieces, NameSupply.after_after]
      exact (hquery.behind joint).append hrest

theorem Statement.placed_pieces (supply : NameSupply) (inside : Bool) :
    ∀ (s : Statement) (number : Nat), Placed supply (s.occurrences inside number)
      (s.pieces (supply.after number)).1
  | ⟨first, more, union⟩, number => by
      have hfirst := Query.placed_pieces supply inside first number
      have hmore := Query.placed_joinedPieces supply union.pieces inside more
        (number + first.choiceCount)
      rw [Statement.fst_pieces, NameSupply.after_after]
      exact hfirst.append hmore

end

/-- The conditionals of a fragment begin in its pieces one after the other. -/
theorem Fragment.placed_pieces (f : Fragment) (supply : NameSupply) :
    Placed supply f.occurrences (f.pieces supply).1 := by
  cases f with
  | clause c => exact Clause.placed_pieces supply false false c 0
  | query q => exact Query.placed_pieces supply false q 0
  | statement s => exact Statement.placed_pieces supply false s 0
  | expr _ | node _ | relationship _ | length _ | path _ | projection _ => exact .empty _

/-- Text of a conditional that is rendered from `supply`, if it carries the scope along or
if it does not. -/
def Occurrence.written (keepsScope : Bool) (supply : NameSupply) (o : Occurrence) : String :=
  let selector := (supply.after o.number).next
  Choice.writtenText
    (Choice.selectorText keepsScope selector (o.choice.conditions.map Expr.text))
    (Choice.unionText (Choice.guardedTexts (Choice.guardText keepsScope selector)
      (supply.after o.number).advance o.choice.armQueries))
    o.choice.columns

/-- Text that a rendering of a query from `supply` has at a conditional. -/
def Occurrence.text (supply : NameSupply) (o : Occurrence) : String :=
  Piece.line (o.pieces supply)

theorem Occurrence.text_eq_written (supply : NameSupply) (o : Occurrence) :
    o.text supply = o.written o.follows supply :=
  o.choice.line_pieces o.follows (supply.after o.number)

theorem Occurrence.written_ne (supply : NameSupply) (o : Occurrence) :
    o.written true supply ≠ o.written false supply := by
  intro h
  have htake := congrArg (fun text => text.toList.take 6) h
  simp [written, Choice.writtenText, Choice.selectorText, String.toList_append] at htake

/-- A conditional carries the scope along exactly if clauses stand before it in its query. -/
theorem Occurrence.text_eq_written_true_iff (supply : NameSupply) (o : Occurrence) :
    o.text supply = o.written true supply ↔ o.follows = true := by
  rw [o.text_eq_written supply]
  cases o.follows with
  | true => exact ⟨fun _ => rfl, fun _ => rfl⟩
  | false => exact ⟨fun h => absurd h.symm (o.written_ne supply), fun h => by cases h⟩

/-- The text of a fragment has that of each of its conditionals in it. -/
theorem Fragment.text_of_mem_occurrences (f : Fragment) (supply : NameSupply) {o : Occurrence}
    (ho : o ∈ f.occurrences) :
    ∃ before behind, (f.render .compact supply).1.text = before ++ o.text supply ++ behind := by
  obtain ⟨before, behind, hpieces⟩ := (f.placed_pieces supply).isInfix o ho
  refine ⟨Piece.line before, Piece.line behind, ?_⟩
  show String.ofList (Piece.write .compact 0 (f.pieces supply).1) = _
  rw [Piece.ofList_write_compact, ← hpieces, Piece.line_append, Piece.line_append]
  rfl

/-- Every conditional of a query has its text in that of the query. Variables go past its
selector and into its arms exactly if other clauses stand before it in its own query. -/
theorem Query.occurrence_written (q : Query) (supply : NameSupply) :
    ∀ o ∈ q.occurrences,
      (∃ before behind, ((Fragment.query q).render .compact supply).1.text =
        before ++ o.text supply ++ behind) ∧
      o.text supply = o.written o.follows supply ∧
      (o.text supply = o.written true supply ↔ o.follows = true) := by
  intro o ho
  exact ⟨Fragment.text_of_mem_occurrences (.query q) supply ho, o.text_eq_written supply,
    o.text_eq_written_true_iff supply⟩

namespace Sample

/-- A query that returns a variable. -/
def returning (id : Identifier) : Query :=
  ⟨[.returning ⟨false, .items ⟨.name id, none⟩ []⟩]⟩

/-- A conditional of one case, decided by a parameter. -/
def choice (parameter column : Identifier) (arm fallback : Query) : Choice :=
  ⟨[(.placeholder ⟨parameter, .boolean⟩, ⟨arm, [], .distinct⟩)], ⟨fallback, [], .distinct⟩,
    [column]⟩

def person : Identifier := ⟨"p", by decide⟩

/-- A conditional that is the first clause of an arm. -/
def inner : Choice := choice ⟨"g", by decide⟩ person (returning person) (returning person)

/-- A variable is bound before the outer conditional and returned by the inner one. -/
def nested : Query :=
  ⟨[.matching false ⟨⟨some person, [], []⟩, []⟩ [] none,
    .choice (choice ⟨"f", by decide⟩ person ⟨[.choice inner]⟩ (returning person))]⟩

end Sample

/-- The arms of the inner conditional see its selector and nothing else. -/
example : (⟨Sample.inner, false, true, 1⟩ : Occurrence).text .fresh =
    "WITH CASE WHEN $g THEN 0 ELSE 1 END AS __cyql1 CALL \x7b " ++
      "WITH __cyql1 WITH __cyql1 WHERE __cyql1 = 0 RETURN p UNION ALL " ++
      "WITH __cyql1 WITH __cyql1 WHERE __cyql1 = 1 RETURN p \x7d RETURN p" := by
  decide +kernel

theorem Query.occurrence_written_inner :
    (⟨Sample.inner, false, true, 1⟩ : Occurrence) ∈ Sample.nested.occurrences ∧
    ∃ before behind, ((Fragment.query Sample.nested).render .compact .fresh).1.text =
      before ++ (⟨Sample.inner, false, true, 1⟩ : Occurrence).written false .fresh ++ behind :=
  have hmem : (⟨Sample.inner, false, true, 1⟩ : Occurrence) ∈ Sample.nested.occurrences :=
    List.mem_cons_of_mem _ List.mem_cons_self
  have hwritten := Sample.nested.occurrence_written .fresh _ hmem
  ⟨hmem, hwritten.2.1 ▸ hwritten.1⟩

/-- Not every conditional inside scope carries the scope along into its arms. -/
theorem Query.scope_lost : ¬ ∀ (q : Query) (supply : NameSupply), ∀ o ∈ q.occurrences,
    o.inside = true → o.text supply = o.written true supply := by
  intro hscope
  have hmem : (⟨Sample.inner, false, true, 1⟩ : Occurrence) ∈ Sample.nested.occurrences :=
    List.mem_cons_of_mem _ List.mem_cons_self
  have hinner := hscope Sample.nested .fresh _ hmem rfl
  cases (Occurrence.text_eq_written_true_iff .fresh _).1 hinner

end GraphQuery
