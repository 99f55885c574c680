import GraphQuery.Fragment

/-!
# Draws of a rendering

Rendering draws one name for every conditional, those in subqueries and in arms included.

Main statement: `Fragment.supply_pieces`, the supply that is left depends on the number of
conditionals only. The pieces of a part can then be written out with the supply that the
parts before it leave behind.
-/

set_option autoImplicit false

namespace GraphQuery

namespace NameSupply

/-- The supply after a number of draws. -/
def after (s : NameSupply) (draws : Nat) : NameSupply := ⟨s.stem, s.issued + draws⟩

theorem after_zero (s : NameSupply) : s.after 0 = s := rfl

/-- Draws add up. -/
theorem after_after (s : NameSupply) (first second : Nat) :
    (s.after first).after second = s.after (first + second) := by
  simp [after, Nat.add_assoc]

theorem advance_after (s : NameSupply) (draws : Nat) :
    s.advance.after draws = s.after (1 + draws) :=
  s.after_after 1 draws

end NameSupply

mutual

/-- Number of conditionals in a clause, at every depth. -/
def Clause.choiceCount : Clause → Nat
  | .subquery body => body.choiceCount
  | .choice arms => arms.choiceCount
  | _ => 0

/-- Number of conditionals in a conditional, itself included. -/
def Choice.choiceCount : Choice → Nat
  | ⟨cases, fallback, _⟩ => 1 + Choice.caseCount cases + fallback.choiceCount

/-- Number of conditionals in the arms that have a condition. -/
def Choice.caseCount : List (Expr × Statement) → Nat
  | [] => 0
  | (_, arm) :: rest => arm.choiceCount + Choice.caseCount rest

/-- Number of conditionals in a query. -/
def Query.choiceCount : Query → Nat
  | ⟨clauses⟩ => Clause.listCount clauses

/-- Number of conditionals in several clauses. -/
def Clause.listCount : List Clause → Nat
  | [] => 0
  | clause :: rest => clause.choiceCount + Clause.listCount rest

/-- Number of conditionals in several queries. -/
def Query.listCount : List Query → Nat
  | [] => 0
  | query :: rest => query.choiceCount + Query.listCount rest

/-- Number of conditionals in a statement. -/
def Statement.choiceCount : Statement → Nat
  | ⟨first, more, _⟩ => first.choiceCount + Query.listCount more

end

mutual

/-- A clause draws one name for each conditional in it. -/
theorem Clause.supply_pieces (keepsScope : Bool) : ∀ (c : Clause) (supply : NameSupply),
    (c.pieces keepsScope supply).2 = supply.after c.choiceCount
  | .subquery body, supply => Statement.supply_pieces body supply
  | .choice arms, supply => Choice.supply_pieces keepsScope arms supply
  | .matching .., _ => rfl
  | .passing .., _ => rfl
  | .unwind .., _ => rfl
  | .create .., _ => rfl
  | .setKey .., _ => rfl
  | .delete .., _ => rfl
  | .returning .., _ => rfl
  | .orderBy .., _ => rfl
  | .skip .., _ => rfl
  | .limit .., _ => rfl

/-- A conditional draws its own name and those of its arms. -/
theorem Choice.supply_pieces (keepsScope : Bool) : ∀ (c : Choice) (supply : NameSupply),
    (c.pieces keepsScope supply).2 = supply.after c.choiceCount
  | ⟨cases, fallback, columns⟩, supply => by
      have hcases := Choice.supply_casePieces (Choice.guardPieces keepsScope supply.next)
        cases supply.advance 0
      show (fallback.armPieces _ (Choice.casePieces _ supply.advance 0 cases).2).2 = _
      rw [Statement.supply_armPieces, hcases, NameSupply.after_after, NameSupply.advance_after,
        ← Nat.add_assoc]
      rfl

theorem Choice.supply_casePieces (guard : Nat → List Piece) :
    ∀ (cases : List (Expr × Statement)) (supply : NameSupply) (number : Nat),
      (Choice.casePieces guard supply number cases).2 = supply.after (Choice.caseCount cases)
  | [], _, _ => rfl
  | (_, arm) :: rest, supply, number => by
      have harm := Statement.supply_armPieces (guard number) arm supply
      show (Choice.casePieces guard (arm.armPieces (guard number) supply).2 (number + 1) rest).2 = _
      rw [Choice.supply_casePieces guard rest, harm, NameSupply.after_after]
      rfl

theorem Statement.supply_armPieces (guard : List Piece) :
    ∀ (s : Statement) (supply : NameSupply),
      (s.armPieces guard supply).2 = supply.after s.choiceCount
  | ⟨first, more, union⟩, supply => by
      have hfirst := Query.supply_pieces first supply
      show (Query.joinedPieces (union.pieces ++ guard) (first.pieces supply).2 more).2 = _
      rw [Query.supply_joinedPieces _ more, hfirst, NameSupply.after_after]
      rfl

theorem Query.supply_pieces : ∀ (q : Query) (supply : NameSupply),
    (q.pieces supply).2 = supply.after q.choiceCount
  | ⟨[]⟩, _ => rfl
  | ⟨first :: rest⟩, supply => by
      have hfirst := Clause.supply_pieces false first supply
      show (Clause.laterPieces (first.pieces false supply).2 rest).2 = _
      rw [Clause.supply_laterPieces rest, hfirst, NameSupply.after_after]
      rfl

theorem Clause.supply_laterPieces : ∀ (cs : List Clause) (supply : NameSupply),
    (Clause.laterPieces supply cs).2 = supply.after (Clause.listCount cs)
  | [], _ => rfl
  | clause :: rest, supply => by
      have hclause := Clause.supply_pieces true clause supply
      show (Clause.laterPieces (clause.pieces true supply).2 rest).2 = _
      rw [Clause.supply_laterPieces rest, hclause, NameSupply.after_after]
      rfl

theorem Query.supply_joinedPieces (joint : List Piece) :
    ∀ (qs : List Query) (supply : NameSupply),
      (Query.joinedPieces joint supply qs).2 = supply.after (Query.listCount qs)
  | [], _ => rfl
  | query :: rest, supply => by
      have hquery := Query.supply_pieces query supply
      show (Query.joinedPieces joint (query.pieces supply).2 rest).2 = _
      rw [Query.supply_joinedPieces joint rest, hquery, NameSupply.after_after]
      rfl

theorem Statement.supply_pieces : ∀ (s : Statement) (supply : NameSupply),
    (s.pieces supply).2 = supply.after s.choiceCount
  | ⟨first, more, union⟩, supply => by
      have hfirst := Query.supply_pieces first supply
      show (Query.joinedPieces union.pieces (first.pieces supply).2 more).2 = _
      rw [Query.supply_joinedPieces _ more, hfirst, NameSupply.after_after]
      rfl

end

/-! ## Pieces with the supplies written out

Each part is rendered with the supply that the parts before it leave behind. -/

variable (supply : NameSupply)

/-- The pieces of a query are those of its first clause and of the later ones, with the supply as
it is behind the first. -/
theorem Query.fst_pieces (first : Clause) (rest : List Clause) :
    ((⟨first :: rest⟩ : Query).pieces supply).1 =
      (first.pieces false supply).1 ++
        (Clause.laterPieces (supply.after first.choiceCount) rest).1 := by
  rw [← first.supply_pieces false]
  rfl

theorem Clause.fst_laterPieces (clause : Clause) (rest : List Clause) :
    (Clause.laterPieces supply (clause :: rest)).1 =
      .lineBreak :: (clause.pieces true supply).1 ++
        (Clause.laterPieces (supply.after clause.choiceCount) rest).1 := by
  rw [← clause.supply_pieces true]
  rfl

theorem Query.fst_joinedPieces (joint : List Piece) (query : Query) (rest : List Query) :
    (Query.joinedPieces joint supply (query :: rest)).1 =
      joint ++ (query.pieces supply).1 ++
        (Query.joinedPieces joint (supply.after query.choiceCount) rest).1 := by
  rw [← query.supply_pieces]
  rfl

/-- The pieces of a statement are those of its first query and of the later ones behind the words
of the union. -/
theorem Statement.fst_pieces (first : Query) (more : List Query) (union : UnionMode) :
    ((⟨first, more, union⟩ : Statement).pieces supply).1 =
      (first.pieces supply).1 ++
        (Query.joinedPieces union.pieces (supply.after first.choiceCount) more).1 := by
  rw [← first.supply_pieces]
  rfl

theorem Statement.fst_armPieces (guard : List Piece) (first : Query) (more : List Query)
    (union : UnionMode) :
    ((⟨first, more, union⟩ : Statement).armPieces guard supply).1 =
      guard ++ (first.pieces supply).1 ++
        (Query.joinedPieces (union.pieces ++ guard) (supply.after first.choiceCount) more).1 := by
  rw [← first.supply_pieces]
  rfl

/-- The pieces of arms are those of the first, the words that keep equal rows, and those of the
later ones. -/
theorem Choice.fst_casePieces (guard : Nat → List Piece) (number : Nat) (condition : Expr)
    (arm : Statement) (rest : List (Expr × Statement)) :
    (Choice.casePieces guard supply number ((condition, arm) :: rest)).1 =
      (arm.armPieces (guard number) supply).1 ++ UnionMode.all.pieces ++
        (Choice.casePieces guard (supply.after arm.choiceCount) (number + 1) rest).1 := by
  rw [← arm.supply_armPieces (guard number)]
  rfl

/-- The pieces of a conditional are those of its three clauses. The arms are numbered in order,
the fallback last. -/
theorem Choice.fst_pieces (keepsScope : Bool) (cases : List (Expr × Statement))
    (fallback : Statement) (columns : List Identifier) :
    ((⟨cases, fallback, columns⟩ : Choice).pieces keepsScope supply).1 =
      Choice.selectorPieces keepsScope supply.next (cases.map Prod.fst) ++ .lineBreak ::
        .openBody ::
          (Choice.casePieces (Choice.guardPieces keepsScope supply.next) (supply.after 1) 0
            cases).1 ++
          (fallback.armPieces (Choice.guardPieces keepsScope supply.next cases.length)
            (supply.after (1 + Choice.caseCount cases))).1 ++
          .closeBody :: .lineBreak :: Choice.returnPieces columns := by
  rw [← NameSupply.after_after, ← Choice.supply_casePieces
    (Choice.guardPieces keepsScope supply.next) cases (supply.after 1) 0]
  rfl

/-! ## Fragments -/

/-- Number of conditionals in a fragment. -/
def Fragment.choiceCount : Fragment → Nat
  | .clause c => c.choiceCount
  | .query q => q.choiceCount
  | .statement s => s.choiceCount
  | _ => 0

/-- A fragment draws one name for each conditional in it. -/
theorem Fragment.supply_pieces (f : Fragment) (supply : NameSupply) :
    (f.pieces supply).2 = supply.after f.choiceCount := by
  cases f with
  | clause c => exact c.supply_pieces false supply
  | query q => exact q.supply_pieces supply
  | statement s => exact s.supply_pieces supply
  | expr _ | node _ | relationship _ | length _ | path _ | projection _ => rfl

end GraphQuery
