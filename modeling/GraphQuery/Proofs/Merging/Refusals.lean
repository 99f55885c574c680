import GraphQuery.Proofs.Compiling.Declared
import GraphQuery.Proofs.Merging.Agreement
import GraphQuery.Proofs.Merging.Compiling

/-!
# Why a merge is refused

A merge needs a fallback and a case, parts that declare what they use, arms that keep equal
rows, and columns on which the arms agree. The reasons are looked for in this order, and
within each in the order of the parts. All of them can be told from the parts as they were
written; the renaming that the parts undergo before the later ones are looked for shows
only in the text of a column that has no name.

Main statement: `Conditional.select_refusals`.
-/

set_option autoImplicit false

namespace GraphQuery

/-! ## Undeclared placeholders -/

namespace Parametrized

variable {β : Type} [Renameable β] {q : Parametrized β} {e : Error}

/-- A part declares every parameter that it uses. -/
def Closed (q : Parametrized β) : Prop :=
  ∀ use ∈ Renameable.placeholders q.body, use.name ∈ q.params.keys

/-- The first use of a parameter that a part does not declare. -/
def Undeclared (q : Parametrized β) (e : Error) : Prop :=
  FirstRefused (fun use => use.name ∈ q.params.keys)
    (fun use e => use.name ∉ q.params.keys ∧ e = .undeclaredParameter use.name)
    (Renameable.placeholders q.body) e

/-- A part is closed, or there is an error that names what it does not declare. -/
theorem closed_or_undeclared (q : Parametrized β) : q.Closed ∨ ∃ e, q.Undeclared e := by
  apply FirstRefused.total
  intro use _
  by_cases h : use.name ∈ q.params.keys
  · exact Or.inl h
  · exact Or.inr ⟨_, h, rfl⟩

/-- A closed part is absorbed by whatever has been claimed before. -/
theorem Closed.absorb (h : q.Closed) (m : Claims) : ∃ m' part, m.absorb q = (m', .ok part) := by
  rw [Claims.absorb, undeclared?_eq_none_iff.2 h]
  exact ⟨_, _, rfl⟩

/-- A part with an undeclared name is refused, and no claim is made for it. -/
theorem Undeclared.absorb (h : q.Undeclared e) (m : Claims) : m.absorb q = (m, .error e) := by
  obtain ⟨before, use, after, hsplit, hbefore, huse, rfl⟩ := h.split
  rw [Claims.absorb, undeclared?_eq_some_iff.2 ⟨before, use, after, hsplit, hbefore, huse, rfl⟩]

end Parametrized

namespace Claims

variable {β : Type} [Renameable β] {qs : List (Parametrized β)} {e : Error}

/-- Closed parts are all absorbed. -/
theorem absorbAll_of_closed (h : ∀ q ∈ qs, q.Closed) (m : Claims) :
    ∃ m' parts, m.absorbAll qs = (m', .ok parts) := by
  induction qs generalizing m with
  | nil => exact ⟨m, [], rfl⟩
  | cons q rest ih =>
      obtain ⟨hq, hrest⟩ := List.forall_mem_cons.1 h
      obtain ⟨m₁, part, hpart⟩ := hq.absorb m
      obtain ⟨m₂, parts, hparts⟩ := ih hrest m₁
      refine ⟨m₂, part :: parts, ?_⟩
      simp only [absorbAll, hpart, hparts]

/-- The first part that is not closed decides the error. -/
theorem absorbAll_of_undeclared
    (h : FirstRefused Parametrized.Closed Parametrized.Undeclared qs e) (m : Claims) :
    ∃ m', m.absorbAll qs = (m', .error e) := by
  induction h generalizing m with
  | here h =>
      refine ⟨m, ?_⟩
      simp only [absorbAll, h.absorb m]
  | there h _ ih =>
      obtain ⟨m₁, part, hpart⟩ := h.absorb m
      obtain ⟨m₂, hrest⟩ := ih m₁
      refine ⟨m₂, ?_⟩
      simp only [absorbAll, hpart, hrest]

end Claims

/-! ## Building the conditional -/

/-- A union of several queries that drops equal rows. -/
def Statement.DropsRows (s : Statement) : Prop := s.union = .distinct ∧ 2 ≤ s.queries.length

theorem Statement.isDistinctUnion_iff {s : Statement} :
    s.isDistinctUnion = true ↔ s.DropsRows := by
  obtain ⟨first, more, union⟩ := s
  cases more <;> simp [Statement.isDistinctUnion, Statement.DropsRows, Statement.queries]

/-- Renaming does not change whether a statement drops equal rows. -/
theorem Statement.dropsRows_rename {s : Statement} {r : Renaming} :
    (r.rename s).DropsRows ↔ s.DropsRows := by
  have hqueries := congrArg List.length (s.queries_mapPlaceholders r.applyTo)
  rw [List.length_map] at hqueries
  have hunion := s.union_mapPlaceholders r.applyTo
  exact and_congr (by rw [← hunion]; rfl) (by rw [← hqueries]; rfl)

/-- What comes out of comparing the arms of a conditional. -/
theorem Choice.build_eq {cases : List (Expr × Statement)} {fallback first : Statement}
    {more : List Statement} (hcases : cases ≠ [])
    (h : cases.map Prod.snd ++ [fallback] = first :: more) :
    Choice.build cases fallback =
      match (first :: more).findIdx? Statement.isDistinctUnion with
      | some arm => .error (.distinctUnionArm arm)
      | none => (agreedColumns Statement.columns first more).map fun columns =>
          ⟨cases, fallback, columns⟩ := by
  cases cases with
  | nil => exact absurd rfl hcases
  | cons case rest =>
      obtain ⟨condition, arm⟩ := case
      simp only [List.map_cons, List.cons_append, List.cons.injEq] at h
      obtain ⟨rfl, rfl⟩ := h
      rw [Choice.build, Statement.commonColumns_eq_agreedColumns]
      cases (arm :: (rest.map Prod.snd ++ [fallback])).findIdx? Statement.isDistinctUnion with
      | some i => rfl
      | none =>
          cases agreedColumns Statement.columns arm (rest.map Prod.snd ++ [fallback]) <;> rfl

namespace Conditional

/-- Assembling fails as building the conditional does, and succeeds with its statement. -/
theorem assemble_eq {params : Declarations} {conditions : List (Expr × Renaming)}
    {arms : List (Statement × Renaming)} {last : Statement × Renaming} :
    assemble params conditions arms last =
      (Choice.build ((conditions.map Prod.fst).zip (arms.map Prod.fst)) last.1).map fun choice =>
        ⟨⟨params, ⟨⟨[.choice choice]⟩, [], .distinct⟩⟩, conditions.map Prod.snd,
          arms.map Prod.snd ++ [last.2]⟩ := by
  rw [assemble, statement]
  cases Choice.build ((conditions.map Prod.fst).zip (arms.map Prod.fst)) last.1 <;> rfl

/-! ## Reasons to refuse a merge -/

/-- The arms of a merge, the fallback last. -/
def arms (cases : List (Parametrized Expr × Parametrized Statement))
    (fallback : Parametrized Statement) : List (Parametrized Statement) :=
  cases.map Prod.snd ++ [fallback]

/-- The renamings that the arms undergo, provided that all parts declare what they use. -/
def renamingsOfArms (cases : List (Parametrized Expr × Parametrized Statement))
    (fallback : Option (Parametrized Statement)) (supply : NameSupply) : List Renaming :=
  let conditions := Claims.absorbAll ⟨Table.empty, supply, []⟩ (cases.map Prod.fst)
  match (conditions.1.absorbAll (cases.map Prod.snd ++ fallback.toList)).2 with
  | .ok parts => parts.map Prod.snd
  | .error _ => []

/-- The first arm that drops equal rows, by its number. -/
def FirstDropsRows (arms : List (Parametrized Statement)) (e : Error) : Prop :=
  FirstRefused (fun arm => ¬arm.1.body.DropsRows)
    (fun arm e => arm.1.body.DropsRows ∧ e = .distinctUnionArm arm.2) arms.zipIdx e

/-- The first arm whose queries do not agree on named columns, or do not agree with the first
arm. The renaming of an arm is found under its number. -/
def FirstDisagrees (renamings : List Renaming) (arms : List (Parametrized Statement))
    (e : Error) : Prop :=
  FirstDeviates (fun arm => arm.1.body.columns)
    (fun arm e => arm.1.body.Disagrees (renamings.getD arm.2 Table.empty) e) arms.zipIdx e

section Reasons

variable (renamings : List Renaming)
  (cases : List (Parametrized Expr × Parametrized Statement))

/-- Why a merge is refused. A reason counts only if none before it applies. -/
inductive Refused : Option (Parametrized Statement) → Error → Prop where
  | missingFallback : Refused none .missingFallback
  | noCases {fallback : Parametrized Statement} (h : cases = []) :
      Refused (some fallback) .noCases
  | undeclared {fallback : Parametrized Statement} {e : Error} (hcases : cases ≠ [])
      (h : FirstRefused Parametrized.Closed Parametrized.Undeclared
        (fragments cases fallback) e) : Refused (some fallback) e
  | dropsRows {fallback : Parametrized Statement} {e : Error} (hcases : cases ≠ [])
      (hclosed : ∀ q ∈ fragments cases fallback, q.Closed)
      (h : FirstDropsRows (arms cases fallback) e) : Refused (some fallback) e
  | disagrees {fallback : Parametrized Statement} {e : Error} (hcases : cases ≠ [])
      (hclosed : ∀ q ∈ fragments cases fallback, q.Closed)
      (hkeeps : ∀ arm ∈ arms cases fallback, ¬arm.body.DropsRows)
      (h : FirstDisagrees renamings (arms cases fallback) e) : Refused (some fallback) e

/-- What a merge asks of its parts. -/
structure Mergeable (fallback : Parametrized Statement) : Prop where
  hasCase : cases ≠ []
  closed : ∀ q ∈ fragments cases fallback, q.Closed
  keepsRows : ∀ arm ∈ arms cases fallback, ¬arm.body.DropsRows
  agree : ∃ columns, ∀ arm ∈ arms cases fallback, arm.body.columns = .ok columns

end Reasons

variable {cases : List (Parametrized Expr × Parametrized Statement)}
  {fallback : Parametrized Statement} {supply : NameSupply} {renamings : List Renaming} {e : Error}

theorem forall_mem_zipIdx_iff {α : Type} {p : α → Prop} {l : List α} :
    (∀ a ∈ l.zipIdx, p a.1) ↔ ∀ a ∈ l, p a := by
  constructor
  · intro h a ha
    obtain ⟨i, hi⟩ := List.mem_iff_getElem?.1 ha
    exact h (a, i) (List.mem_zipIdx_iff_getElem?.2 hi)
  · intro h a ha
    exact h a.1 (List.mem_of_getElem? (List.mem_zipIdx_iff_getElem?.1 ha))

/-- No arm drops rows, or there is a first one that does. -/
theorem firstDropsRows_total (arms : List (Parametrized Statement)) :
    (∀ arm ∈ arms, ¬arm.body.DropsRows) ∨ ∃ e, FirstDropsRows arms e := by
  rw [← forall_mem_zipIdx_iff]
  apply FirstRefused.total
  intro arm _
  by_cases h : arm.1.body.DropsRows
  · exact Or.inr ⟨_, h, rfl⟩
  · exact Or.inl h

/-- All arms return the same columns, or there is a first reason why not. -/
theorem firstDisagrees_total (renamings : List Renaming) (arms : List (Parametrized Statement)) :
    (∃ columns, ∀ arm ∈ arms, arm.body.columns = .ok columns) ∨
      ∃ e, FirstDisagrees renamings arms e := by
  have htotal : (∃ columns, ∀ arm ∈ arms.zipIdx, arm.1.body.columns = .ok columns) ∨
      ∃ e, FirstDisagrees renamings arms e :=
    FirstDeviates.total fun arm _ => arm.1.body.agrees_or_disagrees _
  refine htotal.imp_left ?_
  rintro ⟨columns, hall⟩
  exact ⟨columns, forall_mem_zipIdx_iff.1 hall⟩

/-- Parts can be merged, or there is a reason why not. -/
theorem mergeable_or_refused (renamings : List Renaming)
    (cases : List (Parametrized Expr × Parametrized Statement))
    (fallback : Parametrized Statement) :
    Mergeable cases fallback ∨ ∃ e, Refused renamings cases (some fallback) e := by
  by_cases hcases : cases = []
  · exact Or.inr ⟨_, .noCases hcases⟩
  · have hparts (q : Parametrized Fragment) (_ : q ∈ fragments cases fallback) := q.closed_or_undeclared
    rcases FirstRefused.total hparts with hclosed | ⟨e, he⟩
    · rcases firstDropsRows_total (arms cases fallback) with hkeeps | ⟨e, he⟩
      · rcases firstDisagrees_total renamings (arms cases fallback) with hagree | ⟨e, he⟩
        · exact Or.inl ⟨hcases, hclosed, hkeeps, hagree⟩
        · exact Or.inr ⟨e, .disagrees hcases hclosed hkeeps he⟩
      · exact Or.inr ⟨e, .dropsRows hcases hclosed he⟩
    · exact Or.inr ⟨e, .undeclared hcases he⟩

/-- Reasons do not depend on the renamings, texts of columns aside. -/
theorem Refused.reword {fallback : Option (Parametrized Statement)}
    (renamings' : List Renaming) (h : Refused renamings cases fallback e) :
    ∃ e', Refused renamings' cases fallback e' ∧ e'.textless = e.textless := by
  cases h with
  | missingFallback => exact ⟨_, .missingFallback, rfl⟩
  | noCases h => exact ⟨_, .noCases h, rfl⟩
  | undeclared hcases h => exact ⟨_, .undeclared hcases h, rfl⟩
  | dropsRows hcases hclosed h => exact ⟨_, .dropsRows hcases hclosed h, rfl⟩
  | disagrees hcases hclosed hkeeps h =>
      obtain ⟨e', he', htext⟩ := FirstDeviates.reword (fun _ _ harm => harm.reword _) h
      exact ⟨e', .disagrees hcases hclosed hkeeps he', htext⟩

/-! ## What the arms come to -/

/-- The body of an arm as the merged statement holds it. -/
def renamedArm (renamings : List Renaming) (arm : Parametrized Statement × Nat) : Statement :=
  (renamings.getD arm.2 Table.empty).rename arm.1.body

theorem findIdx?_of_firstDropsRows (renamings : List Renaming)
    {l : List (Parametrized Statement × Nat)}
    (h : FirstRefused (fun arm => ¬arm.1.body.DropsRows)
      (fun arm e => arm.1.body.DropsRows ∧ e = .distinctUnionArm arm.2) l e) :
    ∃ i, l.findIdx? (fun arm => (renamedArm renamings arm).isDistinctUnion) = some i ∧
      ∃ arm, l[i]? = some arm ∧ e = .distinctUnionArm arm.2 := by
  induction h with
  | here h =>
      refine ⟨0, ?_, _, rfl, h.2⟩
      rw [List.findIdx?_cons, if_pos]
      rw [Statement.isDistinctUnion_iff]
      exact Statement.dropsRows_rename.2 h.1
  | there h _ ih =>
      obtain ⟨i, hi, arm, harm, he⟩ := ih
      refine ⟨i + 1, ?_, arm, harm, he⟩
      rw [List.findIdx?_cons, if_neg, hi]
      · rfl
      · rw [Statement.isDistinctUnion_iff]
        exact fun hdrops => h (Statement.dropsRows_rename.1 hdrops)

section Build

variable {built : List (Expr × Statement)} {last : Statement} {arms : List (Parametrized Statement)}

/-- Building a conditional of renamed arms compares them, unless one drops equal rows. -/
theorem build_renamed (hbuilt : built ≠ [])
    (hrenamed : built.map Prod.snd ++ [last] = arms.zipIdx.map (renamedArm renamings)) :
    ∃ arm rest, arms.zipIdx = arm :: rest ∧ Choice.build built last =
      match arms.zipIdx.findIdx? fun arm => (renamedArm renamings arm).isDistinctUnion with
      | some i => .error (.distinctUnionArm i)
      | none => (agreedColumns Statement.columns (renamedArm renamings arm)
          (rest.map (renamedArm renamings))).map fun columns => ⟨built, last, columns⟩ := by
  obtain ⟨arm, rest, harms⟩ : ∃ arm rest, arms.zipIdx = arm :: rest := by
    apply List.exists_cons_of_ne_nil
    intro hnil
    simp [hnil] at hrenamed
  have hfind : (arms.zipIdx.map (renamedArm renamings)).findIdx? Statement.isDistinctUnion =
      arms.zipIdx.findIdx? fun arm => (renamedArm renamings arm).isDistinctUnion :=
    List.findIdx?_map
  refine ⟨arm, rest, harms, ?_⟩
  rw [harms, List.map_cons] at hrenamed hfind
  rw [Choice.build_eq hbuilt hrenamed, hfind, harms]

/-- The first arm that drops rows decides the error. -/
theorem build_of_firstDropsRows (hbuilt : built ≠ [])
    (hrenamed : built.map Prod.snd ++ [last] = arms.zipIdx.map (renamedArm renamings))
    (h : FirstDropsRows arms e) : Choice.build built last = .error e := by
  obtain ⟨arm, rest, -, hbuild⟩ := build_renamed hbuilt hrenamed
  obtain ⟨i, hi, found, hfound, rfl⟩ := findIdx?_of_firstDropsRows renamings h
  rw [hbuild, hi]
  rw [List.getElem?_zipIdx, Option.map_eq_some_iff] at hfound
  obtain ⟨_, _, rfl⟩ := hfound
  simp

variable (hbuilt : built ≠ [])
  (hrenamed : built.map Prod.snd ++ [last] = arms.zipIdx.map (renamedArm renamings))
  (hkeeps : ∀ arm ∈ arms, ¬arm.body.DropsRows)
include hbuilt hrenamed hkeeps

/-- Arms that keep equal rows are compared. -/
theorem build_of_keepsRows : ∃ arm rest, arms.zipIdx = arm :: rest ∧ Choice.build built last =
    (agreedColumns Statement.columns (renamedArm renamings arm)
      (rest.map (renamedArm renamings))).map fun columns => ⟨built, last, columns⟩ := by
  obtain ⟨arm, rest, harms, hbuild⟩ := build_renamed hbuilt hrenamed
  refine ⟨arm, rest, harms, ?_⟩
  have hnone : (arms.zipIdx.findIdx? fun arm =>
      (renamedArm renamings arm).isDistinctUnion) = none := by
    rw [List.findIdx?_eq_none_iff]
    intro arm harm
    rw [Bool.eq_false_iff, ne_eq, Statement.isDistinctUnion_iff]
    intro hdrops
    exact forall_mem_zipIdx_iff.2 hkeeps arm harm (Statement.dropsRows_rename.1 hdrops)
  rw [hbuild, hnone]

/-- If no arm drops rows, the first disagreement over columns decides the error. -/
theorem build_of_firstDisagrees (h : FirstDisagrees renamings arms e) :
    Choice.build built last = .error e := by
  obtain ⟨arm, rest, harms, hbuild⟩ := build_of_keepsRows hbuilt hrenamed hkeeps
  rw [FirstDisagrees, harms] at h
  have hcheck : agreedColumns Statement.columns (renamedArm renamings arm)
      (rest.map (renamedArm renamings)) = .error e := by
    refine FirstDeviates.agreedColumns_eq_error ?_ ?_ h
    · intro arm columns hcolumns
      exact (arm.1.body.columns_mapPlaceholders_ok_iff _ columns).2 hcolumns
    · intro arm e hdisagrees
      exact Statement.columns_rename_error_iff.2 hdisagrees
  rw [hbuild, hcheck]
  rfl

/-- Arms that drop no rows and agree make a conditional. -/
theorem build_of_agree (h : ∃ columns, ∀ arm ∈ arms, arm.body.columns = .ok columns) :
    ∃ choice, Choice.build built last = .ok choice := by
  obtain ⟨columns, hcolumns⟩ := h
  obtain ⟨arm, rest, harms, hbuild⟩ := build_of_keepsRows hbuilt hrenamed hkeeps
  have hcheck : agreedColumns Statement.columns (renamedArm renamings arm)
      (rest.map (renamedArm renamings)) = .ok columns := by
    apply agreedColumns_eq_ok
    rw [← List.map_cons, ← harms]
    intro s hs
    obtain ⟨found, hfound, rfl⟩ := List.mem_map.1 hs
    exact (found.1.body.columns_mapPlaceholders_ok_iff _ columns).2
      (forall_mem_zipIdx_iff.2 hcolumns found hfound)
  rw [hbuild, hcheck]
  exact ⟨_, rfl⟩

end Build

/-! ## What a merge comes to -/

/-- All parts are closed if conditions, arms and fallback are. -/
theorem closed_fragments_iff : (∀ q ∈ fragments cases fallback, q.Closed) ↔
    (∀ q ∈ cases.map Prod.fst, q.Closed) ∧ (∀ q ∈ cases.map Prod.snd, q.Closed) ∧
      fallback.Closed := by
  rw [fragments, List.forall_mem_append]
  refine and_congr List.forall_mem_map ?_
  rw [List.forall_mem_map, List.forall_mem_append, List.forall_mem_singleton]
  rfl

/-- The first undeclared name is looked for in the conditions, then in the arms, then in the
fallback. -/
theorem undeclared_fragments_iff :
    FirstRefused Parametrized.Closed Parametrized.Undeclared (fragments cases fallback) e ↔
      FirstRefused Parametrized.Closed Parametrized.Undeclared (cases.map Prod.fst) e ∨
        (∀ q ∈ cases.map Prod.fst, q.Closed) ∧
          (FirstRefused Parametrized.Closed Parametrized.Undeclared (cases.map Prod.snd) e ∨
            (∀ q ∈ cases.map Prod.snd, q.Closed) ∧ fallback.Undeclared e) := by
  rw [fragments, FirstRefused.append_iff]
  refine or_congr FirstRefused.map_iff (and_congr List.forall_mem_map ?_)
  rw [FirstRefused.map_iff, FirstRefused.append_iff, FirstRefused.singleton_iff]
  rfl

theorem zipWith_rename (qs : List (Parametrized Statement)) (renamings : List Renaming)
    (h : qs.length = renamings.length) :
    List.zipWith (fun q r => r.rename q.body) qs renamings =
      qs.zipIdx.map (renamedArm renamings) := by
  apply List.ext_getElem
  · simp [h]
  · intro i hi hi'
    have hrenaming : i < renamings.length := by
      simp only [List.length_zipWith] at hi
      omega
    simp [renamedArm, hrenaming]

/-- A merge of parts that declare what they use builds a conditional of the renamed arms. -/
theorem select_of_closed (supply : NameSupply) (hcases : cases ≠ [])
    (hclosed : ∀ q ∈ fragments cases fallback, q.Closed) :
    ∃ built last, built ≠ [] ∧ built.map Prod.snd ++ [last] = (arms cases fallback).zipIdx.map
        (renamedArm (renamingsOfArms cases (some fallback) supply)) ∧
      (select cases (some fallback) supply).1.result.map (fun _ => ()) =
        (Choice.build built last).map fun _ => () := by
  obtain ⟨hconditions, harms, hfallback⟩ := closed_fragments_iff.1 hclosed
  obtain ⟨m, conditions, hm⟩ := Claims.absorbAll_of_closed hconditions ⟨Table.empty, supply, []⟩
  obtain ⟨m₁, parts, hparts⟩ := Claims.absorbAll_of_closed harms m
  obtain ⟨m', last, hlast⟩ := hfallback.absorb m₁
  have hall := Claims.absorbAll_concat hparts hlast
  have hrenamings : renamingsOfArms cases (some fallback) supply =
      (parts ++ [last]).map Prod.snd := by
    simp only [renamingsOfArms, hm, Option.toList_some, hall]
  have hconditionCount := (Claims.run_of_absorbAll hm).1
  have hpartCount := (Claims.run_of_absorbAll hparts).1
  rw [List.length_map] at hconditionCount hpartCount
  obtain ⟨hlength, hbodies, -⟩ := Claims.run_of_absorbAll hall
  -- as many conditions as arms come out, so pairing them up loses none
  refine ⟨(conditions.map Prod.fst).zip (parts.map Prod.fst), last.1, ?_, ?_, ?_⟩
  · apply List.ne_nil_of_length_pos
    simpa [hconditionCount, hpartCount] using List.length_pos_iff.2 hcases
  · have hbuilt : ((conditions.map Prod.fst).zip (parts.map Prod.fst)).map Prod.snd =
        parts.map Prod.fst := by
      apply List.map_snd_zip
      simp [hconditionCount, hpartCount]
    rw [hbuilt, hrenamings, ← zipWith_rename, arms, ← hbodies, List.map_append]
    · rfl
    · rw [List.length_map, hlength, arms]
  · have hselect : (select cases (some fallback) supply).1.result =
        assemble m'.claimed conditions parts last := by
      simp only [select, List.isEmpty_eq_false_iff.2 hcases, hm, hparts, hlast]
      rfl
    rw [hselect, assemble_eq]
    cases Choice.build ((conditions.map Prod.fst).zip (parts.map Prod.fst)) last.1 <;> rfl

/-- A merge stops at the first part that uses a parameter without declaring it. -/
theorem select_of_undeclared (supply : NameSupply) (hcases : cases ≠ [])
    (h : FirstRefused Parametrized.Closed Parametrized.Undeclared (fragments cases fallback) e) :
    (select cases (some fallback) supply).1.result = .error e := by
  have hempty := List.isEmpty_eq_false_iff.2 hcases
  rcases undeclared_fragments_iff.1 h with h | ⟨hconditions, h | ⟨harms, h⟩⟩
  · obtain ⟨m, hm⟩ := Claims.absorbAll_of_undeclared h ⟨Table.empty, supply, []⟩
    simp only [select, hempty, hm]
    rfl
  · obtain ⟨m, conditions, hm⟩ := Claims.absorbAll_of_closed hconditions ⟨Table.empty, supply, []⟩
    obtain ⟨m₁, harms⟩ := Claims.absorbAll_of_undeclared h m
    simp only [select, hempty, hm, harms]
    rfl
  · obtain ⟨m, conditions, hm⟩ := Claims.absorbAll_of_closed hconditions ⟨Table.empty, supply, []⟩
    obtain ⟨m₁, parts, hparts⟩ := Claims.absorbAll_of_closed harms m
    simp only [select, hempty, hm, hparts, h.absorb m₁]
    rfl

theorem eq_error_of_map {α β : Type} {x : Except Error α} {f : α → β}
    (h : x.map f = .error e) : x = .error e := by
  cases x with
  | error found =>
      cases h
      rfl
  | ok a => cases h

theorem exists_ok_of_map {α β : Type} {x : Except Error α} {f : α → β} {b : β}
    (h : x.map f = .ok b) : ∃ a, x = .ok a := by
  cases x with
  | error found => cases h
  | ok a => exact ⟨a, rfl⟩

/-- A merge fails with the first reason. -/
theorem select_of_refused {fallback : Option (Parametrized Statement)}
    (h : Refused (renamingsOfArms cases fallback supply) cases fallback e) :
    (select cases fallback supply).1.result = .error e := by
  cases h with
  | missingFallback => rfl
  | noCases h =>
      rw [h]
      rfl
  | undeclared hcases h => exact select_of_undeclared supply hcases h
  | dropsRows hcases hclosed h =>
      obtain ⟨built, last, hbuilt, hrenamed, hresult⟩ := select_of_closed supply hcases hclosed
      apply eq_error_of_map
      rw [hresult, build_of_firstDropsRows hbuilt hrenamed h]
      rfl
  | disagrees hcases hclosed hkeeps h =>
      obtain ⟨built, last, hbuilt, hrenamed, hresult⟩ := select_of_closed supply hcases hclosed
      apply eq_error_of_map
      rw [hresult, build_of_firstDisagrees hbuilt hrenamed hkeeps h]
      rfl

/-- Parts that give no reason are merged. -/
theorem select_of_mergeable (supply : NameSupply) (h : Mergeable cases fallback) :
    ∃ c, (select cases (some fallback) supply).1.result = .ok c := by
  obtain ⟨built, last, hbuilt, hrenamed, hresult⟩ := select_of_closed supply h.hasCase h.closed
  obtain ⟨choice, hchoice⟩ := build_of_agree hbuilt hrenamed h.keepsRows h.agree
  rw [hchoice] at hresult
  exact exists_ok_of_map hresult

/-- The renamings that are looked up for the reasons are those that a merge ends up with. -/
theorem renamingsOfArms_of_select {left : NameSupply} {c : Conditional} {events : List Event}
    (h : select cases (some fallback) supply = (⟨.ok c, events⟩, left)) :
    renamingsOfArms cases (some fallback) supply = c.armRenamings := by
  obtain ⟨m, m', conditions, parts, choice, hm, hparts, -, -, -, hrenamings, -⟩ :=
    absorbed_of_select h
  simp only [renamingsOfArms, hm, Option.toList_some, hparts, hrenamings]

/-- A merge succeeds exactly if it has a fallback and its parts can be merged. Otherwise its
error is the first reason that applies. The reason is found on the parts as they were
written: it does not depend on the supply or on the renamings, which show only in the text of
a column that has no name. The renamings that are looked up for that text are those that the
arms of a merge that succeeds end up with. -/
theorem select_refusals (cases : List (Parametrized Expr × Parametrized Statement))
    (fallback : Option (Parametrized Statement)) (supply : NameSupply) :
    ((∃ c, (select cases fallback supply).1.result = .ok c) ↔
      ∃ last, fallback = some last ∧ Mergeable cases last) ∧
    (∀ e, (select cases fallback supply).1.result = .error e ↔
      Refused (renamingsOfArms cases fallback supply) cases fallback e) ∧
    (∀ e, (select cases fallback supply).1.result = .error e →
      (∃ e', Refused [] cases fallback e' ∧ e'.textless = e.textless) ∧
      ∀ supply', ∃ e', (select cases fallback supply').1.result = .error e' ∧
        e'.textless = e.textless) ∧
    ∀ c events left, select cases fallback supply = (⟨.ok c, events⟩, left) →
      renamingsOfArms cases fallback supply = c.armRenamings := by
  -- either all is in order or some reason applies, so it is enough that each has its effect
  have htotal : ∀ renamings, (∃ last, fallback = some last ∧ Mergeable cases last) ∨
      ∃ e, Refused renamings cases fallback e := by
    intro renamings
    cases fallback with
    | none => exact Or.inr ⟨_, .missingFallback⟩
    | some last =>
        exact (mergeable_or_refused renamings cases last).imp_left fun h => ⟨last, rfl, h⟩
  have hok : ∀ supply', (∃ last, fallback = some last ∧ Mergeable cases last) →
      ∃ c, (select cases fallback supply').1.result = .ok c := by
    rintro supply' ⟨last, rfl, h⟩
    exact select_of_mergeable supply' h
  have herror : ∀ e, (select cases fallback supply).1.result = .error e ↔
      Refused (renamingsOfArms cases fallback supply) cases fallback e := fun e =>
    eq_error_iff_of_total (fun e he => select_of_refused he)
      ((htotal _).imp_left (hok supply))
  refine ⟨⟨?_, hok supply⟩, herror, ?_, ?_⟩
  · rintro ⟨c, hc⟩
    rcases htotal (renamingsOfArms cases fallback supply) with hmergeable | ⟨e, he⟩
    · exact hmergeable
    · rw [select_of_refused he] at hc
      cases hc
  · intro e he
    have hrefused := (herror e).1 he
    refine ⟨hrefused.reword [], fun supply' => ?_⟩
    obtain ⟨e', he', htext⟩ := hrefused.reword (renamingsOfArms cases fallback supply')
    exact ⟨e', select_of_refused he', htext⟩
  · intro c events left h
    cases fallback with
    | none => cases h
    | some last => exact renamingsOfArms_of_select h

namespace Sample

/-- An arm whose only column is a placeholder without an alias. -/
def unaliased : Parametrized Statement :=
  ⟨arm.params, ⟨⟨[.returning ⟨false, .items ⟨.placeholder ⟨x, .any⟩, none⟩ []⟩]⟩, [], .distinct⟩⟩

end Sample

/-- The condition has claimed the name of the placeholder, so that the error cites the column
under a fresh name. With any other supply it is the same error with another text. -/
theorem select_refusals_unaliased :
    (select [(Sample.condition, Sample.unaliased)] (some Sample.fallback)
      (.ofStem Sample.x)).1.result = .error (.unnamedColumn "$x0") ∧
    ∀ supply, ∃ text, (select [(Sample.condition, Sample.unaliased)] (some Sample.fallback)
      supply).1.result = .error (.unnamedColumn text) := by
  obtain ⟨-, -, hworded, -⟩ := select_refusals [(Sample.condition, Sample.unaliased)]
    (some Sample.fallback) (.ofStem Sample.x)
  have hresult : (select [(Sample.condition, Sample.unaliased)] (some Sample.fallback)
      (.ofStem Sample.x)).1.result = .error (.unnamedColumn "$x0") := rfl
  refine ⟨hresult, fun supply => ?_⟩
  obtain ⟨e, he, htext⟩ := (hworded _ hresult).2 supply
  cases e with
  | unnamedColumn text => exact ⟨text, he⟩
  | invalidIdentifier | emptyArguments | nonFiniteFloat | emptyQuery | emptyUnion | missingReturn
  | columnMismatch | noCases | distinctUnionArm | clauseAfterChoice | duplicateParameter
  | undeclaredParameter | kindConflict | parameterMismatch | missingFallback => cases htext

end Conditional

end GraphQuery
