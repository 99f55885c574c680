import GraphQuery.Proofs.Building.WellFormed
import GraphQuery.Proofs.Merging.Refusals

/-!
# Conditionals in what can be built

Arms that agree are all that building a conditional asks for. What can be built is well-formed
at every level, so each of its conditionals, at whatever depth it stands and whatever it has been
renamed or merged from, is one that its own constructor would make of its parts.

Main statement: `Fragment.BuiltFrom.build_occurrences`.
-/

set_option autoImplicit false

namespace GraphQuery

/-! ## Building a conditional -/

namespace Choice

/-- Building a conditional of parts that agree gives back the conditional. -/
theorem build_of_agreed {c : Choice} (h : c.Agreed) :
    Choice.build c.cases c.fallback = .ok c := by
  have hcases : c.cases ≠ [] := fun hnil => h.conditions_ne (List.map_eq_nil_iff.2 hnil)
  obtain ⟨first, more, harms⟩ : ∃ first more, c.arms = first :: more := by
    apply List.exists_cons_of_ne_nil
    simp [Choice.arms]
  have hnone : (first :: more).findIdx? Statement.isDistinctUnion = none := by
    rw [← harms, List.findIdx?_eq_none_iff]
    intro arm harm
    rw [Bool.eq_false_iff, ne_eq, Statement.isDistinctUnion_iff]
    rintro ⟨hmode, hlength⟩
    have hle := h.keepsRows arm harm hmode
    omega
  have hcolumns : agreedColumns Statement.columns first more = .ok c.columns := by
    apply agreedColumns_eq_ok
    rw [← harms]
    exact h.columns_eq
  rw [Choice.build_eq hcases harms, hnone, hcolumns]
  cases c
  rfl

end Choice

/-! ## Conditionals at every depth -/

mutual

/-- The conditionals in a sound clause agree, the clause itself included if it is one. -/
theorem Clause.agreed_occurrences (follows inside : Bool) :
    ∀ (c : Clause) (number : Nat), c.Sound →
      ∀ o ∈ c.occurrences follows inside number, o.choice.Agreed
  | .subquery body, number, h => Statement.agreed_occurrences false body number h.wellFormed
  | .choice arms, number, h =>
      Choice.agreed_occurrences follows inside arms number (h.agreed arms rfl) h.wellFormed
  | .matching .., _, _ => List.forall_mem_nil _
  | .passing .., _, _ => List.forall_mem_nil _
  | .unwind .., _, _ => List.forall_mem_nil _
  | .create .., _, _ => List.forall_mem_nil _
  | .setKey .., _, _ => List.forall_mem_nil _
  | .delete .., _, _ => List.forall_mem_nil _
  | .returning .., _, _ => List.forall_mem_nil _
  | .orderBy .., _, _ => List.forall_mem_nil _
  | .skip .., _, _ => List.forall_mem_nil _
  | .limit .., _, _ => List.forall_mem_nil _

/-- A conditional that agrees comes before those in its arms. -/
theorem Choice.agreed_occurrences (follows inside : Bool) :
    ∀ (c : Choice) (number : Nat), c.Agreed → (∀ t ∈ c.nested, t.WellFormed) →
      ∀ o ∈ c.occurrences follows inside number, o.choice.Agreed
  | ⟨cases, fallback, columns⟩, number, h, hnested => by
      obtain ⟨hcases, hlast⟩ := List.forall_mem_append.1 hnested
      exact List.forall_mem_cons.2 ⟨h, List.forall_mem_append.2
        ⟨Choice.agreed_caseOccurrences inside cases _ hcases,
          Statement.agreed_occurrences inside fallback _ hlast⟩⟩

theorem Choice.agreed_caseOccurrences (inside : Bool) :
    ∀ (cases : List (Expr × Statement)) (number : Nat),
      (∀ t ∈ Choice.caseNested cases, t.WellFormed) →
        ∀ o ∈ Choice.caseOccurrences inside number cases, o.choice.Agreed
  | [], _, _ => List.forall_mem_nil _
  | (_, arm) :: rest, number, h => by
      obtain ⟨harm, hrest⟩ := List.forall_mem_append.1 h
      exact List.forall_mem_append.2 ⟨Statement.agreed_occurrences inside arm number harm,
        Choice.agreed_caseOccurrences inside rest _ hrest⟩

theorem Query.agreed_occurrences (inside : Bool) :
    ∀ (q : Query) (number : Nat), (∀ c ∈ q.clauses, c.Sound) →
      ∀ o ∈ q.occurrencesFrom inside number, o.choice.Agreed
  | ⟨[]⟩, _, _ => List.forall_mem_nil _
  | ⟨first :: rest⟩, number, h => by
      obtain ⟨hfirst, hrest⟩ := List.forall_mem_cons.1 h
      exact List.forall_mem_append.2 ⟨Clause.agreed_occurrences false inside first number hfirst,
        Clause.agreed_laterOccurrences rest _ hrest⟩

theorem Clause.agreed_laterOccurrences :
    ∀ (cs : List Clause) (number : Nat), (∀ c ∈ cs, c.Sound) →
      ∀ o ∈ Clause.laterOccurrences number cs, o.choice.Agreed
  | [], _, _ => List.forall_mem_nil _
  | clause :: rest, number, h => by
      obtain ⟨hclause, hrest⟩ := List.forall_mem_cons.1 h
      exact List.forall_mem_append.2 ⟨Clause.agreed_occurrences true true clause number hclause,
        Clause.agreed_laterOccurrences rest _ hrest⟩

theorem Query.agreed_listOccurrences (inside : Bool) :
    ∀ (qs : List Query) (number : Nat), (∀ q ∈ qs, ∀ c ∈ q.clauses, c.Sound) →
      ∀ o ∈ Query.listOccurrences inside number qs, o.choice.Agreed
  | [], _, _ => List.forall_mem_nil _
  | query :: rest, number, h => by
      obtain ⟨hquery, hrest⟩ := List.forall_mem_cons.1 h
      exact List.forall_mem_append.2 ⟨Query.agreed_occurrences inside query number hquery,
        Query.agreed_listOccurrences inside rest _ hrest⟩

/-- The conditionals of a statement in order at every level agree. -/
theorem Statement.agreed_occurrences (inside : Bool) :
    ∀ (s : Statement) (number : Nat), (∀ t ∈ s.nested, t.WellFormed) →
      ∀ o ∈ s.occurrences inside number, o.choice.Agreed
  | ⟨first, more, union⟩, number, h => by
      obtain ⟨hfirst, hmore⟩ := List.forall_mem_cons.1 (Statement.sound_of_wellFormed_nested h)
      exact List.forall_mem_append.2 ⟨Query.agreed_occurrences inside first number hfirst,
        Query.agreed_listOccurrences inside more _ hmore⟩

end

namespace Fragment

/-- All conditionals of a sound fragment agree. -/
theorem Sound.agreed_occurrences {f : Fragment} (h : f.Sound) :
    ∀ o ∈ f.occurrences, o.choice.Agreed := by
  cases f with
  | clause c => exact Clause.agreed_occurrences false false c 0 h
  | query q => exact Query.agreed_occurrences false q 0 h
  | statement s => exact Statement.agreed_occurrences false s 0 h
  | expr _ | node _ | relationship _ | length _ | path _ | projection _ =>
      exact List.forall_mem_nil _

/-- Every conditional in what can be built is one that its constructor makes. -/
theorem BuiltFrom.build_occurrences {leaves : Fragment → Prop} {f : Fragment}
    (h : f.BuiltFrom leaves) :
    ∀ o ∈ f.occurrences, Choice.build o.choice.cases o.choice.fallback = .ok o.choice :=
  fun o ho => Choice.build_of_agreed (h.sound.agreed_occurrences o ho)

end Fragment

end GraphQuery
