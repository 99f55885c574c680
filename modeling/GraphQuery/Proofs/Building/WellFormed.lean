import GraphQuery.Fragment
import GraphQuery.Proofs.Building.Nested
import GraphQuery.Proofs.Layout.Inline
import GraphQuery.Proofs.Merging.Partition
import GraphQuery.Proofs.Rendering.Scope

/-!
# Well-formed statements

The constructors check a query when it becomes a statement and the arms when they become a
conditional, one level each. What they make is in order at every level: no constructor changes
a statement that it takes in, and renaming changes nothing that a check looks at.

Main statement: `Statement.wellFormed_of_built`.
-/

set_option autoImplicit false

namespace GraphQuery

/-! ## Well-formed parts -/

/-- Queries in order: there is a clause, and behind a conditional rows are only sorted and cut. -/
structure Query.InOrder (q : Query) : Prop where
  clauses_ne : q.clauses ≠ []
  one_choice : (q.clauses.filter Clause.isChoice).length ≤ 1
  sorted : q.clauses.Pairwise fun c d => c.isChoice = true → d.keepsColumns = true

/-- Conditionals whose arms can be joined and return the columns that are kept with them. -/
structure Choice.Agreed (c : Choice) : Prop where
  conditions_ne : c.conditions ≠ []
  arms_length : c.arms.length = c.conditions.length + 1
  keepsRows : ∀ arm ∈ c.arms, arm.union = .distinct → arm.queries.length ≤ 1
  columns_eq : ∀ arm ∈ c.arms, arm.columns = .ok c.columns

/-- Statements whose own queries and conditionals are in order. -/
structure Statement.WellFormed (s : Statement) : Prop where
  queries_ne : s.queries ≠ []
  inOrder : ∀ q ∈ s.queries, q.InOrder
  agreed : ∀ q ∈ s.queries, ∀ choice, .choice choice ∈ q.clauses → choice.Agreed

/-- Clauses whose own conditional is in order, and all statements within. -/
structure Clause.Sound (c : Clause) : Prop where
  agreed : ∀ choice, c = .choice choice → choice.Agreed
  wellFormed : ∀ t ∈ c.nested, t.WellFormed

/-! ## Checks -/

/-- A clause that only sorts or cuts is no conditional. -/
theorem Clause.isChoice_eq_false {c : Clause} (h : c.keepsColumns = true) :
    c.isChoice = false := by
  cases c <;> first | rfl | cases h

/-- Without a stray clause, only clauses that sort or cut stand behind a conditional. -/
theorem Query.sorted_of_strayClause? {clauses : List Clause}
    (h : Query.strayClause? ⟨clauses⟩ = none) :
    clauses.Pairwise fun c d => c.isChoice = true → d.keepsColumns = true := by
  induction clauses with
  | nil => exact List.Pairwise.nil
  | cons clause rest ih =>
      cases hclause : clause.isChoice with
      | true =>
          -- the conditional is found here, so everything behind it has been looked at
          have hrest : ∀ d ∈ rest, d.keepsColumns = true := by
            intro d hd
            rw [strayClause?, List.dropWhile_cons_of_neg (by simp [hclause]), List.drop_one,
              List.tail_cons] at h
            simpa using List.find?_eq_none.1 h d hd
          refine List.pairwise_cons.2 ⟨fun d hd _ => hrest d hd, ?_⟩
          exact List.Pairwise.imp_of_mem (fun _ hd _ _ => hrest _ hd)
            (List.pairwise_of_forall fun _ _ => trivial)
      | false =>
          have hskip : Query.strayClause? ⟨clause :: rest⟩ = Query.strayClause? ⟨rest⟩ := by
            rw [strayClause?, strayClause?, List.dropWhile_cons_of_pos (by simp [hclause])]
          rw [hskip] at h
          refine List.pairwise_cons.2 ⟨fun d _ hchoice => ?_, ih h⟩
          rw [hclause] at hchoice
          cases hchoice

/-- Behind a conditional there is no other one, since that neither sorts nor cuts. -/
theorem Query.length_filter_isChoice_le {clauses : List Clause}
    (h : clauses.Pairwise fun c d => c.isChoice = true → d.keepsColumns = true) :
    (clauses.filter Clause.isChoice).length ≤ 1 := by
  induction clauses with
  | nil => exact Nat.zero_le 1
  | cons clause rest ih =>
      obtain ⟨hfirst, hrest⟩ := List.pairwise_cons.1 h
      cases hclause : clause.isChoice with
      | true =>
          have hnone : rest.filter Clause.isChoice = [] := by
            refine List.filter_eq_nil_iff.2 fun d hd => ?_
            rw [Clause.isChoice_eq_false (hfirst d hd hclause)]
            exact Bool.false_ne_true
          rw [List.filter_cons_of_pos hclause, hnone]
          exact Nat.le_refl 1
      | false =>
          rw [List.filter_cons_of_neg (by simp [hclause])]
          exact ih hrest

/-- A query that passes its check is in order. -/
theorem Query.inOrder_of_check {q : Query} (h : q.check = .ok ()) : q.InOrder := by
  unfold Query.check at h
  split at h
  · cases h
  · next hne =>
      split at h
      · cases h
      · next hstray =>
          have hsorted := Query.sorted_of_strayClause? hstray
          refine ⟨?_, Query.length_filter_isChoice_le hsorted, hsorted⟩
          rintro hnil
          rw [hnil] at hne
          exact hne rfl

/-- All of several queries that pass their checks are in order. -/
theorem Query.inOrder_of_checkAll {qs : List Query} (h : Query.checkAll qs = .ok ()) :
    ∀ q ∈ qs, q.InOrder := by
  induction qs with
  | nil => intro q hq; cases hq
  | cons first rest ih =>
      obtain ⟨_, hfirst, hrest⟩ := exists_of_bind_ok h
      exact List.forall_mem_cons.2 ⟨Query.inOrder_of_check hfirst, ih hrest⟩

/-- A statement of one query has been checked. -/
theorem Statement.queries_of_single {q : Query} {s : Statement} (h : Statement.single q = .ok s) :
    s.queries = [q] ∧ q.InOrder := by
  obtain ⟨_, hcheck, hs⟩ := exists_of_bind_ok h
  cases hs
  exact ⟨rfl, Query.inOrder_of_check hcheck⟩

/-- A union holds the queries that it was made of, all of them checked. -/
theorem Statement.queries_of_unite {mode : UnionMode} {qs : List Query} {s : Statement}
    (h : Statement.unite mode qs = .ok s) : s.queries = qs ∧ ∀ q ∈ qs, q.InOrder := by
  cases qs with
  | nil => cases h
  | cons first more =>
      obtain ⟨_, hchecks, hs⟩ := exists_of_bind_ok h
      cases hs
      exact ⟨rfl, Query.inOrder_of_checkAll hchecks⟩

/-- A statement that drops no equal rows has one query if it joins them without duplicates. -/
theorem Statement.keepsRows_of_isDistinctUnion {s : Statement} (h : s.isDistinctUnion = false)
    (hmode : s.union = .distinct) : s.queries.length ≤ 1 := by
  obtain ⟨first, more, union⟩ := s
  cases more with
  | nil => exact Nat.le_refl 1
  | cons second rest =>
      cases hmode
      cases h

/-- A conditional that can be built agrees with what its parts return. -/
theorem Choice.agreed_of_build {c : Choice} (h : Choice.build c.cases c.fallback = .ok c) :
    c.Agreed := by
  obtain ⟨hunions, hcolumns⟩ := Choice.columns_of_build h
  refine ⟨?_, ?_, fun arm harm => Statement.keepsRows_of_isDistinctUnion (hunions arm harm),
    hcolumns⟩
  · intro hnil
    rw [List.map_eq_nil_iff.1 hnil] at h
    cases h
  · rw [Choice.arms, Choice.conditions, List.length_append, List.length_map, List.length_map]
    rfl

/-! ## Replacing placeholders -/

section Replacing

variable (f : Placeholder → Placeholder)

/-- A query stays in order: the check looks at the sorts of its clauses only. -/
theorem Query.InOrder.mapPlaceholders {q : Query} (h : q.InOrder) :
    (q.mapPlaceholders f).InOrder := by
  have hclauses := q.clauses_mapPlaceholders f
  have hsorted : (q.mapPlaceholders f).clauses.Pairwise
      fun c d => c.isChoice = true → d.keepsColumns = true := by
    rw [hclauses, List.pairwise_map]
    refine h.sorted.imp fun {c d} hcd hchoice => ?_
    rw [d.keepsColumns_mapPlaceholders]
    rw [c.isChoice_mapPlaceholders] at hchoice
    exact hcd hchoice
  refine ⟨?_, Query.length_filter_isChoice_le hsorted, hsorted⟩
  rw [hclauses]
  exact fun hnil => h.clauses_ne (List.map_eq_nil_iff.1 hnil)

/-- A conditional whose arms agree keeps agreeing arms. -/
theorem Choice.Agreed.mapPlaceholders {c : Choice} (h : c.Agreed) :
    (c.mapPlaceholders f).Agreed := by
  have harms := c.arms_mapPlaceholders f
  have hconditions := c.conditions_mapPlaceholders f
  constructor
  · rw [hconditions]
    exact fun hnil => h.conditions_ne (List.map_eq_nil_iff.1 hnil)
  · rw [harms, hconditions, List.length_map, List.length_map]
    exact h.arms_length
  · rw [harms]
    rintro _ harm hmode
    obtain ⟨arm, hmem, rfl⟩ := List.mem_map.1 harm
    rw [arm.union_mapPlaceholders] at hmode
    rw [arm.queries_mapPlaceholders, List.length_map]
    exact h.keepsRows arm hmem hmode
  · rw [harms, c.columns_mapPlaceholders]
    rintro _ harm
    obtain ⟨arm, hmem, rfl⟩ := List.mem_map.1 harm
    exact (arm.columns_mapPlaceholders_ok_iff f c.columns).2 (h.columns_eq arm hmem)

/-- A clause is a conditional after replacing if it was one before. -/
theorem Clause.eq_choice_of_mapPlaceholders {c : Clause} {choice : Choice}
    (h : c.mapPlaceholders f = .choice choice) :
    ∃ original, c = .choice original ∧ choice = original.mapPlaceholders f := by
  cases c <;> cases h
  exact ⟨_, rfl, rfl⟩

/-- A well-formed statement stays well-formed. -/
theorem Statement.WellFormed.mapPlaceholders {s : Statement} (h : s.WellFormed) :
    (s.mapPlaceholders f).WellFormed := by
  have hqueries := s.queries_mapPlaceholders f
  constructor
  · rw [hqueries]
    exact fun hnil => h.queries_ne (List.map_eq_nil_iff.1 hnil)
  · rw [hqueries]
    rintro _ hq
    obtain ⟨q, hmem, rfl⟩ := List.mem_map.1 hq
    exact (h.inOrder q hmem).mapPlaceholders f
  · rw [hqueries]
    rintro _ hq choice hchoice
    obtain ⟨q, hmem, rfl⟩ := List.mem_map.1 hq
    rw [q.clauses_mapPlaceholders] at hchoice
    obtain ⟨c, hc, hmap⟩ := List.mem_map.1 hchoice
    obtain ⟨original, rfl, rfl⟩ := Clause.eq_choice_of_mapPlaceholders f hmap
    exact (h.agreed q hmem original hc).mapPlaceholders f

theorem Statement.wellFormed_nested_mapPlaceholders {ss : List Statement}
    (h : ∀ t ∈ ss, t.WellFormed) : ∀ t ∈ ss.map (Statement.mapPlaceholders f), t.WellFormed := by
  rintro _ ht
  obtain ⟨t, hmem, rfl⟩ := List.mem_map.1 ht
  exact (h t hmem).mapPlaceholders f

/-- A sound clause stays sound. -/
theorem Clause.Sound.mapPlaceholders {c : Clause} (h : c.Sound) : (c.mapPlaceholders f).Sound := by
  constructor
  · rintro choice hchoice
    obtain ⟨original, rfl, rfl⟩ := Clause.eq_choice_of_mapPlaceholders f hchoice
    exact (h.agreed original rfl).mapPlaceholders f
  · rw [c.nested_mapPlaceholders]
    exact Statement.wellFormed_nested_mapPlaceholders f h.wellFormed

end Replacing

/-! ## Putting parts together -/

theorem Clause.bodies_of_isPlain {c : Clause} (h : c.isPlain = true) : c.bodies = [] := by
  cases c <;> first | rfl | cases h

/-- Clauses that hold no statement are sound. -/
theorem Clause.sound_of_isPlain {c : Clause} (h : c.isPlain = true) : c.Sound := by
  constructor
  · rintro choice rfl
    cases h
  · rw [c.nested_eq_flatMap, Clause.bodies_of_isPlain h]
    intro t ht
    cases ht

/-- A subquery is sound if its body is in order at every level. -/
theorem Clause.sound_subquery {body : Statement} (h : ∀ t ∈ body.nested, t.WellFormed) :
    (Clause.subquery body).Sound := by
  constructor
  · intro choice hchoice
    cases hchoice
  · exact h

/-- A conditional that has been built of arms in order at every level is sound. -/
theorem Clause.sound_choice {c : Choice} (hbuild : Choice.build c.cases c.fallback = .ok c)
    (harms : ∀ arm ∈ c.arms, ∀ t ∈ arm.nested, t.WellFormed) : (Clause.choice c).Sound := by
  constructor
  · intro choice hchoice
    cases hchoice
    exact Choice.agreed_of_build hbuild
  · intro t ht
    obtain ⟨arm, harm, hnested⟩ := Clause.mem_nested_iff.1 ht
    exact harms arm harm t hnested

/-- A statement is in order at every level if its queries are and its clauses are sound. -/
theorem Statement.wellFormed_nested {s : Statement} {qs : List Query} (hs : s.queries = qs)
    (hqueries : ∀ q ∈ qs, q.InOrder) (hclauses : ∀ q ∈ qs, ∀ c ∈ q.clauses, c.Sound) :
    ∀ t ∈ s.nested, t.WellFormed := by
  subst hs
  intro t ht
  rcases Statement.mem_nested_iff.1 ht with rfl | ⟨q, hq, c, hc, hnested⟩
  · exact ⟨List.cons_ne_nil _ _, hqueries,
      fun q hq choice hchoice => (hclauses q hq _ hchoice).agreed choice rfl⟩
  · exact (hclauses q hq c hc).wellFormed t hnested

/-- Conversely the clauses of a statement in order at every level are sound. -/
theorem Statement.sound_of_wellFormed_nested {s : Statement}
    (h : ∀ t ∈ s.nested, t.WellFormed) :
    ∀ q ∈ s.queries, ∀ c ∈ q.clauses, c.Sound := by
  intro q hq c hc
  constructor
  · rintro choice rfl
    exact (h s s.mem_nested_self).agreed q hq choice hc
  · exact fun t ht => h t (Statement.mem_nested_iff.2 (Or.inr ⟨q, hq, c, hc, ht⟩))

/-- What holds of the clauses of a query holds of the sorted query's, if it holds of an ORDER BY
with one key more. -/
theorem Query.forall_mem_sortedBy {P : Clause → Prop} {q : Query} {item : SortKey}
    (h : ∀ c ∈ q.clauses, P c) (hnew : P (.orderBy [item]))
    (hmore : ∀ items, P (.orderBy items) → P (.orderBy (items ++ [item]))) :
    ∀ c ∈ (q.sortedBy item).clauses, P c := by
  unfold Query.sortedBy
  split
  · next items hlast =>
      refine List.forall_mem_append.2 ⟨fun c hc => h c (List.dropLast_subset _ hc), ?_⟩
      exact List.forall_mem_singleton.2 (hmore items (h _ (List.mem_of_getLast? hlast)))
  · exact List.forall_mem_append.2 ⟨h, List.forall_mem_singleton.2 hnew⟩

/-- A merged statement is in order at every level if the parts are that it was merged of. -/
theorem Conditional.wellFormed_nested_of_select
    {cases : List (Parametrized Expr × Parametrized Statement)} {fallback : Parametrized Statement}
    {supply left : NameSupply} {c : Conditional} {events : List Event}
    (h : Conditional.select cases (some fallback) supply = (⟨.ok c, events⟩, left))
    (hparts : ∀ part ∈ cases.map Prod.snd ++ [fallback], ∀ t ∈ part.body.nested, t.WellFormed) :
    ∀ t ∈ c.query.body.nested, t.WellFormed := by
  obtain ⟨choice, hbody, hbuild, -, harms⟩ := Conditional.choice_of_select h
  have hsound : (Clause.choice choice).Sound := by
    refine Clause.sound_choice hbuild ?_
    rw [harms]
    refine Conditional.forall_mem_zipWith_rename fun part hpart r => ?_
    show ∀ t ∈ (part.body.mapPlaceholders r.applyTo).nested, t.WellFormed
    rw [part.body.nested_mapPlaceholders]
    exact Statement.wellFormed_nested_mapPlaceholders r.applyTo (hparts part hpart)
  rw [hbody]
  exact Statement.wellFormed_nested rfl
    (List.forall_mem_singleton.2 (Query.inOrder_of_check rfl))
    (List.forall_mem_singleton.2 (List.forall_mem_singleton.2 hsound))

/-! ## What can be built -/

namespace Fragment

/-- Fragments without a statement in them. -/
def isLeaf : Fragment → Bool
  | .clause c => c.isPlain
  | .query _ => false
  | .statement _ => false
  | _ => true

/-- What the constructors and builders make of the given `leaves`, what renaming makes of it,
and what is read off it again. -/
inductive BuiltFrom (leaves : Fragment → Prop) : Fragment → Prop
  | leaf {a : Fragment} (h : a.isLeaf = true) (ha : leaves a) : BuiltFrom leaves a
  | subquery {body : Statement} (h : BuiltFrom leaves (.statement body)) :
      BuiltFrom leaves (.clause (.subquery body))
  | choice {cases : List (Expr × Statement)} {fallback : Statement} {c : Choice}
      (hconditions : ∀ case ∈ cases, BuiltFrom leaves (.expr case.1))
      (harms : ∀ case ∈ cases, BuiltFrom leaves (.statement case.2))
      (hlast : BuiltFrom leaves (.statement fallback))
      (hbuild : Choice.build cases fallback = .ok c) : BuiltFrom leaves (.clause (.choice c))
  | empty : BuiltFrom leaves (.query ⟨[]⟩)
  | append {q : Query} {c : Clause} (hq : BuiltFrom leaves (.query q))
      (hc : BuiltFrom leaves (.clause c)) : BuiltFrom leaves (.query ⟨q.clauses ++ [c]⟩)
  | sortedBy {q : Query} {item : SortKey} (hq : BuiltFrom leaves (.query q))
      (hitem : BuiltFrom leaves (.expr item.expr)) : BuiltFrom leaves (.query (q.sortedBy item))
  | single {q : Query} {s : Statement} (hq : BuiltFrom leaves (.query q))
      (hsingle : Statement.single q = .ok s) : BuiltFrom leaves (.statement s)
  | unite {mode : UnionMode} {qs : List Query} {s : Statement}
      (hqs : ∀ q ∈ qs, BuiltFrom leaves (.query q)) (hunite : Statement.unite mode qs = .ok s) :
      BuiltFrom leaves (.statement s)
  | merged {cases : List (Parametrized Expr × Parametrized Statement)}
      {fallback : Parametrized Statement} {supply left : NameSupply} {c : Conditional}
      {events : List Event}
      (hconditions : ∀ part ∈ cases.map Prod.fst, BuiltFrom leaves (.expr part.body))
      (harms : ∀ part ∈ cases.map Prod.snd ++ [fallback], BuiltFrom leaves (.statement part.body))
      (hselect : Conditional.select cases (some fallback) supply = (⟨.ok c, events⟩, left)) :
      BuiltFrom leaves (.statement c.query.body)
  | renamed {a : Fragment} (r : Renaming) (h : BuiltFrom leaves a) : BuiltFrom leaves (r.rename a)
  | queryOf {s : Statement} {q : Query} (h : BuiltFrom leaves (.statement s))
      (hq : q ∈ s.queries) : BuiltFrom leaves (.query q)
  | clauseOf {q : Query} {c : Clause} (h : BuiltFrom leaves (.query q)) (hc : c ∈ q.clauses) :
      BuiltFrom leaves (.clause c)
  | bodyOf {c : Clause} {body : Statement} (h : BuiltFrom leaves (.clause c))
      (hbody : body ∈ c.bodies) : BuiltFrom leaves (.statement body)

/-- Fragments that can exist: what can be built of any expressions, patterns and clauses without
a statement in them. -/
def Built (a : Fragment) : Prop := a.BuiltFrom fun _ => True

/-- What the checks ensure of a fragment at every level. -/
def Sound : Fragment → Prop
  | .clause c => c.Sound
  | .query q => ∀ c ∈ q.clauses, c.Sound
  | .statement s => ∀ t ∈ s.nested, t.WellFormed
  | _ => True

/-- A sound fragment stays sound when it is renamed. -/
theorem Sound.rename {a : Fragment} (r : Renaming) (h : a.Sound) : (r.rename a).Sound := by
  cases a with
  | clause c => exact Clause.Sound.mapPlaceholders r.applyTo h
  | query q =>
      intro c hc
      have hclauses := q.clauses_mapPlaceholders r.applyTo
      rw [hclauses] at hc
      obtain ⟨original, hmem, rfl⟩ := List.mem_map.1 hc
      exact (h original hmem).mapPlaceholders r.applyTo
  | statement s =>
      show ∀ t ∈ (s.mapPlaceholders r.applyTo).nested, t.WellFormed
      rw [s.nested_mapPlaceholders]
      exact Statement.wellFormed_nested_mapPlaceholders r.applyTo h
  | expr _ | node _ | relationship _ | length _ | path _ | projection _ => exact trivial

theorem sound_of_isLeaf {a : Fragment} (h : a.isLeaf = true) : a.Sound := by
  cases a with
  | clause c => exact Clause.sound_of_isPlain h
  | query q => cases h
  | statement s => cases h
  | expr _ | node _ | relationship _ | length _ | path _ | projection _ => exact trivial

/-- What can be built is sound, whatever its leaves: no constructor takes a part in without its
checks, and none changes a part that it takes in. -/
theorem BuiltFrom.sound {leaves : Fragment → Prop} {a : Fragment} (h : a.BuiltFrom leaves) :
    a.Sound := by
  induction h with
  | leaf h _ => exact sound_of_isLeaf h
  | subquery _ ih => exact Clause.sound_subquery ih
  | @choice cases fallback c _ _ _ hbuild _ iharms ihlast =>
      obtain ⟨hcases, hfallback⟩ := Conditional.build_ok hbuild
      refine Clause.sound_choice (by rw [hcases, hfallback, hbuild]) fun arm harm => ?_
      rw [Choice.arms, hcases, hfallback] at harm
      rcases List.mem_append.1 harm with hcase | hlast
      · obtain ⟨case, hmem, rfl⟩ := List.mem_map.1 hcase
        exact iharms case hmem
      · obtain rfl := List.mem_singleton.1 hlast
        exact ihlast
  | empty => exact List.forall_mem_nil _
  | append _ _ ihq ihc => exact List.forall_mem_append.2 ⟨ihq, List.forall_mem_singleton.2 ihc⟩
  | sortedBy _ _ ih _ =>
      exact Query.forall_mem_sortedBy ih (Clause.sound_of_isPlain rfl)
        fun _ _ => Clause.sound_of_isPlain rfl
  | single _ hsingle ih =>
      obtain ⟨hqueries, horder⟩ := Statement.queries_of_single hsingle
      exact Statement.wellFormed_nested hqueries (List.forall_mem_singleton.2 horder)
        (List.forall_mem_singleton.2 ih)
  | unite _ hunite ih =>
      obtain ⟨hqueries, horder⟩ := Statement.queries_of_unite hunite
      exact Statement.wellFormed_nested hqueries horder ih
  | merged _ _ hselect _ ih => exact Conditional.wellFormed_nested_of_select hselect ih
  | renamed r _ ih => exact ih.rename r
  | queryOf _ hq ih => exact Statement.sound_of_wellFormed_nested ih _ hq
  | clauseOf _ hc ih => exact ih _ hc
  | bodyOf _ hbody ih =>
      exact fun t ht => ih.wellFormed t (Clause.mem_nested_iff.2 ⟨_, hbody, ht⟩)

end Fragment

/-- Every statement that can be built is well-formed at every level, and so it stays under
renaming. Renaming reaches the statements within where they stand, and keeps the columns that
a statement and each of its queries return and the words of all clauses. -/
theorem Statement.wellFormed_of_built {s : Statement} (h : (Fragment.statement s).Built) :
    (∀ t ∈ s.nested, t.WellFormed) ∧
    ∀ r : Renaming,
      (∀ t ∈ (r.rename s).nested, t.WellFormed) ∧
      (r.rename s).nested = s.nested.map r.rename ∧
      ∀ t ∈ s.nested,
        (r.rename t).columns.toOption = t.columns.toOption ∧
        (r.rename t).queries.map (fun q => q.columns.toOption) =
          t.queries.map (fun q => q.columns.toOption) ∧
        (r.rename t).keywords = t.keywords := by
  refine ⟨h.sound, fun r => ⟨(Fragment.BuiltFrom.renamed r h).sound,
    s.nested_mapPlaceholders r.applyTo, fun t _ => ⟨t.columns_mapPlaceholders r.applyTo, ?_,
      t.keywords_mapPlaceholders r.applyTo⟩⟩⟩
  show (t.mapPlaceholders r.applyTo).queries.map _ = _
  rw [t.queries_mapPlaceholders, List.map_map]
  exact List.map_congr_left fun q _ => q.columns_mapPlaceholders r.applyTo

namespace Sample

/-- A subquery whose body picks between two statements, and what it returns. -/
def picking : Statement :=
  ⟨⟨[.subquery ⟨⟨[.choice inner, .limit (.placeholder ⟨person, .integer⟩)]⟩, [], .distinct⟩,
    .returning ⟨false, .items ⟨.name person, none⟩ []⟩]⟩, [], .distinct⟩

theorem built_returning (id : Identifier) :
    (Fragment.statement ⟨returning id, [], .distinct⟩).Built := by
  have hquery : (Fragment.query (returning id)).Built := .append .empty (.leaf rfl trivial)
  exact .single hquery rfl

theorem built_inner : (Fragment.clause (.choice inner)).Built := by
  have harms : ∀ case ∈ inner.cases, (Fragment.statement case.2).Built :=
    List.forall_mem_singleton.2 (built_returning person)
  have hbuild : Choice.build inner.cases inner.fallback = .ok inner := rfl
  exact .choice (fun _ _ => .leaf rfl trivial) harms (built_returning person) hbuild

theorem built_picking : (Fragment.statement picking).Built := by
  have hbody : (Fragment.query ⟨[.choice inner, .limit (.placeholder ⟨person, .integer⟩)]⟩).Built :=
    .append (.append .empty built_inner) (.leaf rfl trivial)
  have hquery : (Fragment.query picking.first).Built :=
    .append (.append .empty (.subquery (.single hbody rfl))) (.leaf rfl trivial)
  exact .single hquery rfl

end Sample

/-- The statement, its subquery and both arms of the conditional in that stay well-formed when
the condition gets another parameter. -/
theorem Statement.wellFormed_picking :
    (Fragment.statement Sample.picking).Built ∧ Sample.picking.nested.length = 4 ∧
    ∀ t ∈ (Renaming.rename (Table.empty.insert "g" Sample.person) Sample.picking).nested,
      t.WellFormed :=
  ⟨Sample.built_picking, rfl,
    ((Statement.wellFormed_of_built Sample.built_picking).2 _).1⟩

end GraphQuery
