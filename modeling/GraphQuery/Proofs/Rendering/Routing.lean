import GraphQuery.Proofs.Building.Conditionals
import GraphQuery.Proofs.Layout.Unions
import GraphQuery.Proofs.Rendering.Selectors

/-!
# Routing of conditionals

The selector of a conditional is the value of a CASE expression: the number of the first
condition that is true, or the number of conditions if none is. The guards compare it with
the numbers of the arms, so the queries of one arm run, all of them, and no others.

Main statement: `Fragment.routes_render`.
-/

set_option autoImplicit false

namespace GraphQuery

/-! ## Values of expressions -/

namespace Expr

/-- The numeral of a natural number. -/
def natural (n : Nat) : Expr := .literal (.int n)

theorem line_natural (n : Nat) : Piece.line (natural n).pieces = Number.naturalText n :=
  (Piece.line_cons _ []).trans String.append_empty

/-- The result of the first condition that is true, or the fallback if none is. -/
def chosen (fallback : Option Expr) : List Bool → List Expr → Option Expr
  | true :: _, result :: _ => some result
  | false :: truths, _ :: results => chosen fallback truths results
  | _, _ => fallback

/-- The result that a CASE expression takes if its conditions have the given truths. -/
def outcome? (truths : List Bool) : Expr → Option Expr
  | .case _ result more fallback => chosen fallback truths (result :: more.map Prod.snd)
  | _ => none

/-- The integer that an expression is if the variable `var` is `value`. -/
def integer? (var : Identifier) (value : Int) : Expr → Option Int
  | .literal (.int n) => some n
  | .name id => if id = var then some value else none
  | _ => none

/-- Whether an equation of integers is true if the variable `var` is `value`. -/
def isTrueAt (var : Identifier) (value : Int) : Expr → Bool
  | .binary .eq left right =>
      match left.integer? var value, right.integer? var value with
      | some m, some n => m == n
      | _, _ => false
  | _ => false

end Expr

namespace Choice

/-! ## The expressions of a conditional -/

/-- Conditions with their numbers, from `number` on. -/
def numberedArms (number : Nat) : List Expr → List (Expr × Expr)
  | [] => []
  | condition :: rest => (condition, .natural number) :: numberedArms (number + 1) rest

/-- The expression that a selector is computed by. Without conditions it would be the number
of the fallback. -/
def selectorExpr : List Expr → Expr
  | [] => .natural 0
  | first :: more =>
      .case first (.natural 0) (numberedArms 1 more) (some (.natural (more.length + 1)))

/-- The test in the guards of the arm with the given number. -/
def guardExpr (selector : Identifier) (number : Nat) : Expr :=
  .binary .eq (.name selector) (.natural number)

theorem whenPieces_eq_armPieces (conditions : List Expr) (number : Nat) :
    whenPieces conditions number = Expr.armPieces (numberedArms number conditions) := by
  induction conditions generalizing number with
  | nil => rfl
  | cons condition rest ih =>
      rw [whenPieces, ih, numberedArms, Expr.armPieces]
      simp only [List.append_assoc, List.cons_append]
      rfl

/-- The clause that computes a selector is written with a CASE expression. -/
theorem line_selectorPieces_eq (keepsScope : Bool) (selector : Identifier) {conditions : List Expr}
    (h : conditions ≠ []) :
    Piece.line (selectorPieces keepsScope selector conditions) =
      "WITH " ++ (if keepsScope then "*, " else "") ++ (selectorExpr conditions).text ++ " AS " ++
        selector.text := by
  have hend (text : String) : " END" ++ (" AS " ++ text) = " END AS " ++ text :=
    String.append_assoc.symm
  cases conditions with
  | nil => exact absurd rfl h
  | cons first more =>
      rw [← Expr.line_pieces]
      cases keepsScope <;>
        simp only [selectorPieces, whenPieces_eq_armPieces, selectorExpr, numberedArms,
          Expr.armPieces, Expr.pieces, Expr.fallbackPieces, Expr.line_natural, Piece.line_append,
          Piece.line_cons, Piece.line_nil, Piece.lineText, List.length_cons, String.append_assoc,
          String.append_empty, hend, Bool.false_eq_true, if_false, if_true]

theorem line_guardPieces_eq (keepsScope : Bool) (selector : Identifier) (number : Nat) :
    Piece.line (guardPieces keepsScope selector number) =
      "WITH " ++ scopeText keepsScope selector ++ " WITH " ++ scopeText keepsScope selector ++
        " WHERE " ++ (guardExpr selector number).text ++ " " := by
  have hsign (text : String) : " " ++ ("=" ++ (" " ++ text)) = " = " ++ text := by
    rw [← String.append_assoc, ← String.append_assoc]
    rfl
  have htest : (guardExpr selector number).text =
      selector.text ++ (" = " ++ Number.naturalText number) := by
    rw [← Expr.line_pieces]
    show Piece.line (.name selector :: .gap :: .word "=" :: .gap ::
      (Expr.natural number).pieces) = _
    simp only [Piece.line_cons, Piece.lineText, Expr.line_natural, hsign]
  rw [line_guardPieces, guardText, htest]
  simp only [String.append_assoc]

/-! ## Values of a conditional -/

theorem chosen_numberedArms {truths : List Bool} {conditions : List Expr}
    (h : truths.length = conditions.length) (number : Nat) :
    Expr.chosen (some (.natural (number + conditions.length))) truths
        ((numberedArms number conditions).map Prod.snd) =
      some (.natural (number + truths.idxOf true)) := by
  induction conditions generalizing truths number with
  | nil =>
      obtain rfl := List.length_eq_zero_iff.1 h
      rfl
  | cons condition rest ih =>
      cases truths with
      | nil => cases h
      | cons truth truths =>
          have hlength := Nat.succ.inj h
          cases truth with
          | true => rfl
          | false =>
              have hrest := ih hlength (number + 1)
              have hindex : (false :: truths).idxOf true = truths.idxOf true + 1 :=
                List.idxOf_cons_ne truths (by decide)
              rw [Nat.add_assoc, Nat.add_assoc, Nat.add_comm 1, Nat.add_comm 1] at hrest
              rw [hindex]
              exact hrest

/-- The selector is the number of the first condition that is true. -/
theorem outcome?_selectorExpr {truths : List Bool} {conditions : List Expr}
    (h : truths.length = conditions.length) (hne : conditions ≠ []) :
    (selectorExpr conditions).outcome? truths = some (.natural (truths.idxOf true)) := by
  cases conditions with
  | nil => exact absurd rfl hne
  | cons first more =>
      have hchosen := chosen_numberedArms h 0
      rw [Nat.zero_add, Nat.zero_add] at hchosen
      exact hchosen

/-- A guard is true for the number of its arm only. -/
theorem isTrueAt_guardExpr (selector : Identifier) (number value : Nat) :
    (guardExpr selector number).isTrueAt selector value = (number == value) := by
  simp [guardExpr, Expr.isTrueAt, Expr.integer?, Expr.natural]
  omega

theorem number_of_mem_armQueries {number : Nat} {arm : Statement} :
    ∀ q ∈ arm.armQueries number, q.number = number := by
  intro q hq
  rcases List.mem_cons.1 hq with rfl | hmore
  · rfl
  · obtain ⟨query, -, rfl⟩ := List.mem_map.1 hmore
    rfl

theorem le_number_of_mem_queriesFrom {number : Nat} {arms : List Statement} :
    ∀ q ∈ queriesFrom number arms, number ≤ q.number := by
  induction arms generalizing number with
  | nil => intro q hq; cases hq
  | cons arm rest ih =>
      intro q hq
      rcases List.mem_append.1 hq with hhere | hlater
      · exact (number_of_mem_armQueries q hhere).ge
      · exact Nat.le_of_succ_le (ih q hlater)

/-- Among the queries of arms, those with the number of an arm are its own. -/
theorem filter_queriesFrom {arms : List Statement} {index : Nat} {arm : Statement}
    (h : arms[index]? = some arm) (number : Nat) :
    (queriesFrom number arms).filter (fun q => q.number == number + index) =
      arm.armQueries (number + index) := by
  induction arms generalizing index number with
  | nil => cases h
  | cons first rest ih =>
      rw [queriesFrom, List.filter_append]
      -- later arms have greater numbers, so an arm shares its number with no other
      cases index with
      | zero =>
          cases h
          have hhere : (arm.armQueries number).filter (fun q => q.number == number) =
              arm.armQueries number :=
            List.filter_eq_self.2 fun q hq => beq_iff_eq.2 (number_of_mem_armQueries q hq)
          have hlater : (queriesFrom (number + 1) rest).filter (fun q => q.number == number) =
              [] := by
            refine List.filter_eq_nil_iff.2 fun q hq heq => ?_
            have hle := le_number_of_mem_queriesFrom q hq
            rw [beq_iff_eq.1 heq] at hle
            exact Nat.not_succ_le_self number hle
          rw [Nat.add_zero, hhere, hlater, List.append_nil]
      | succ index =>
          have hhere : (first.armQueries number).filter
              (fun q => q.number == number + (index + 1)) = [] := by
            refine List.filter_eq_nil_iff.2 fun q hq heq => ?_
            rw [number_of_mem_armQueries q hq, beq_iff_eq] at heq
            omega
          have hlater := ih h (number + 1)
          rw [Nat.add_assoc, Nat.add_comm 1] at hlater
          rw [hhere, hlater, List.nil_append]

/-- The queries of arms are those of the arms one after the other. -/
theorem query_queriesFrom (number : Nat) (arms : List Statement) :
    (queriesFrom number arms).map ArmQuery.query = arms.flatMap Statement.queries := by
  induction arms generalizing number with
  | nil => rfl
  | cons arm rest ih =>
      have hqueries : (arm.armQueries number).map ArmQuery.query = arm.queries := by
        rw [Statement.armQueries, List.map_cons, List.map_map]
        exact congrArg (arm.first :: ·) (List.map_id arm.more)
      rw [queriesFrom, List.map_append, ih, hqueries, List.flatMap_cons]

theorem joint_of_mem_queriesFrom {arms : List Statement}
    (h : ∀ arm ∈ arms, arm.isDistinctUnion = false) (number : Nat) :
    ∀ q ∈ queriesFrom number arms, q.joint = .all := by
  induction arms generalizing number with
  | nil => intro q hq; cases hq
  | cons arm rest ih =>
      obtain ⟨harm, hrest⟩ := List.forall_mem_cons.1 h
      intro q hq
      rcases List.mem_append.1 hq with hhere | hlater
      · rw [Statement.armQueries_of_all harm] at hhere
        obtain ⟨query, -, rfl⟩ := List.mem_map.1 hhere
        rfl
      · exact ih hrest (number + 1) q hlater

theorem conditions_ne_nil_of_build {c : Choice} (h : Choice.build c.cases c.fallback = .ok c) :
    c.conditions ≠ [] := by
  obtain ⟨cases, fallback, columns⟩ := c
  cases cases with
  | nil => cases h
  | cons first rest => exact List.cons_ne_nil _ _

end Choice

/-! ## Conditionals of a fragment -/

/-- What a rendering from `supply` writes for a conditional, and which queries run. -/
structure Occurrence.Routes (supply : NameSupply) (o : Occurrence) : Prop where
  /-- Every query of the arms stands in the body, behind a guard of its own. -/
  pieces_eq : o.pieces supply =
    Choice.selectorPieces o.follows (o.selector supply) o.choice.conditions ++ .lineBreak ::
      .openBody ::
        (Choice.unionPieces (Choice.guardedPieces (Choice.guardPieces o.follows
          (o.selector supply)) (supply.after (o.number + 1)) o.choice.armQueries) ++
          .closeBody :: .lineBreak :: Choice.returnPieces o.choice.columns)
  queries_eq : o.choice.armQueries.map ArmQuery.query = o.choice.arms.flatMap Statement.queries
  joint_eq : ∀ q ∈ o.choice.armQueries, q.joint = .all
  /-- The selector is computed by a CASE expression. -/
  selector_line : Piece.line (Choice.selectorPieces o.follows (o.selector supply)
      o.choice.conditions) =
    "WITH " ++ (if o.follows then "*, " else "") ++
      (Choice.selectorExpr o.choice.conditions).text ++ " AS " ++ (o.selector supply).text
  /-- A guard tests the selector. -/
  guard_line : ∀ number, Piece.line (Choice.guardPieces o.follows (o.selector supply) number) =
    "WITH " ++ Choice.scopeText o.follows (o.selector supply) ++
      " WITH " ++ Choice.scopeText o.follows (o.selector supply) ++
        " WHERE " ++ (Choice.guardExpr (o.selector supply) number).text ++ " "
  /-- The first condition that is true picks the arm, and the fallback comes last. -/
  runs : ∀ truths : List Bool, truths.length = o.choice.conditions.length →
    ∃ arm, o.choice.arms[truths.idxOf true]? = some arm ∧
      (Choice.selectorExpr o.choice.conditions).outcome? truths =
        some (.natural (truths.idxOf true)) ∧
      o.choice.armQueries.filter (fun q => (Choice.guardExpr (o.selector supply)
          q.number).isTrueAt (o.selector supply) (truths.idxOf true)) =
        arm.queries.map fun query => ⟨.all, truths.idxOf true, query⟩

theorem Occurrence.routes_of_build (supply : NameSupply) (o : Occurrence)
    (h : Choice.build o.choice.cases o.choice.fallback = .ok o.choice) : o.Routes supply := by
  have harms := (Choice.columns_of_build h).1
  have hne := Choice.conditions_ne_nil_of_build h
  refine ⟨o.pieces_eq supply, Choice.query_queriesFrom 0 o.choice.arms,
    Choice.joint_of_mem_queriesFrom harms 0, Choice.line_selectorPieces_eq _ _ hne,
    Choice.line_guardPieces_eq _ _, fun truths hlength => ?_⟩
  have hindex : truths.idxOf true < o.choice.arms.length := by
    have hle : truths.idxOf true ≤ truths.length := List.idxOf_le_length
    rw [hlength, Choice.conditions, List.length_map] at hle
    rw [Choice.arms, List.length_append, List.length_map, List.length_singleton]
    omega
  have harm := List.getElem?_eq_getElem hindex
  refine ⟨_, harm, Choice.outcome?_selectorExpr hlength hne, ?_⟩
  have hqueries := Choice.filter_queriesFrom harm 0
  rw [Nat.zero_add, Statement.armQueries_of_all (harms _ (List.getElem_mem hindex))] at hqueries
  simp only [Choice.isTrueAt_guardExpr]
  exact hqueries

namespace Fragment

theorem uniform_of_build (f : Fragment) (h : ∀ o ∈ f.occurrences,
    Choice.build o.choice.cases o.choice.fallback = .ok o.choice) : Uniform f.occurrences :=
  fun o ho => (Choice.columns_of_build (h o ho)).1

/-- If its conditionals could be built, a fragment has each of them among its pieces and in its
text, and in each exactly the queries of one arm run. The queries of a level are joined in one
mode: where bodies close again between two joints, these are the same. What can be built has
such conditionals only (`Fragment.BuiltFrom.build_occurrences`). -/
theorem routes_render (f : Fragment) (supply : NameSupply)
    (hbuilt : ∀ o ∈ f.occurrences,
      Choice.build o.choice.cases o.choice.fallback = .ok o.choice) :
    (∀ o ∈ f.occurrences, o.pieces supply <:+: (f.pieces supply).1 ∧ f.Writes supply o ∧
      o.Routes supply) ∧
    ∀ (before between behind : List Piece) (first second : UnionMode),
      (f.pieces supply).1 = before ++ first.pieces ++ between ++ second.pieces ++ behind →
        Piece.Balanced between → first = second := by
  constructor
  · intro o ho
    exact ⟨(f.placed_pieces supply).isInfix o ho, f.writes_of_mem_occurrences supply ho,
      o.routes_of_build supply (hbuilt o ho)⟩
  · intro before between behind first second hpieces hbetween
    exact f.joints_eq supply (f.uniform_of_build hbuilt) hpieces hbetween

namespace Sample

/-- A query that returns the person. -/
def query : Query := GraphQuery.Sample.returning GraphQuery.Sample.person

/-- A conditional whose first arm is a union of two queries. -/
def wide : Choice :=
  ⟨[(.placeholder ⟨GraphQuery.Sample.person, .boolean⟩, ⟨query, [query], .all⟩)],
    ⟨query, [], .distinct⟩, [GraphQuery.Sample.person]⟩

/-- A fragment whose only conditional is that. -/
def widely : Fragment := .clause (.choice wide)

theorem built_widely : widely.Built := by
  have hquery : (Fragment.query query).Built := .append .empty (.leaf rfl trivial)
  have hunited : Statement.unite .all [query, query] = .ok ⟨query, [query], .all⟩ := rfl
  have harms : ∀ case ∈ wide.cases, (Fragment.statement case.2).Built :=
    List.forall_mem_singleton.2 (.unite (List.forall_mem_cons.2
      ⟨hquery, List.forall_mem_singleton.2 hquery⟩) hunited)
  have hbuild : Choice.build wide.cases wide.fallback = .ok wide := rfl
  exact .choice (fun _ _ => .leaf rfl trivial) harms (.single hquery rfl) hbuild

/-- The query behind the guard of an arm. -/
def guarded (number : Nat) : List Piece :=
  Choice.guardPieces false NameSupply.fresh.next number ++ (query.pieces .fresh).1

end Sample

/-- The union in the first arm goes on in the mode that joins the arms. -/
theorem routes_render_wide :
    Sample.widely.Built ∧ (⟨Sample.wide, false, false, 0⟩ : Occurrence).Routes .fresh ∧
    Sample.widely.Writes .fresh ⟨Sample.wide, false, false, 0⟩ ∧
    ∃ before behind joint, (Sample.widely.pieces .fresh).1 =
      before ++ UnionMode.pieces joint ++ Sample.guarded 0 ++ UnionMode.all.pieces ++ behind ∧
        joint = .all := by
  have hroutes := routes_render Sample.widely .fresh Sample.built_widely.build_occurrences
  have hlevel : BraceLevel False False .all (Sample.guarded 0) := Choice.level_guardPieces false _ 0
    (Sample.query.level_pieces .all false 0 .fresh False.elim False.elim)
  have hpieces : (Sample.widely.pieces .fresh).1 =
      (Choice.selectorPieces false NameSupply.fresh.next Sample.wide.conditions ++ .lineBreak ::
        .openBody :: Sample.guarded 0) ++ UnionMode.all.pieces ++ Sample.guarded 0 ++
          UnionMode.all.pieces ++ (Sample.guarded 1 ++ .closeBody :: .lineBreak ::
            Choice.returnPieces Sample.wide.columns) := rfl
  obtain ⟨-, hwrites, hruns⟩ := hroutes.1 _ List.mem_cons_self
  exact ⟨Sample.built_widely, hruns, hwrites, _, _, _, hpieces,
    hroutes.2 _ _ _ _ _ hpieces hlevel.balanced⟩

end Fragment

end GraphQuery
