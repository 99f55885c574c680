import GraphQuery.Proofs.Merging.Claims
import GraphQuery.Proofs.Merging.Columns
import GraphQuery.Proofs.Merging.Renamed

/-!
# A merge partitions the names

The parameters of a merged conditional are the targets of its parts, in the order in
which the parts claim them: all conditions, then all arms, then the fallback. No
target belongs to two names, whether of one part or of two, so each part can be found
again in the merged statement.

Main statement: `Conditional.partition_select`.
-/

set_option autoImplicit false

namespace GraphQuery

/-- The placeholders of a share after the merge. -/
def Share.renamedPlaceholders (s : Share) : List Placeholder :=
  s.placeholders.map s.renames.applyTo

namespace Conditional

/-- What each part brings into a merge and how it was renamed there, in the order in which the
parts claim their names. -/
def shares (c : Conditional) (cases : List (Parametrized Expr × Parametrized Statement))
    (fallback : Parametrized Statement) : List Share :=
  List.zipWith Share.of (cases.map Prod.fst) c.conditionRenamings ++
    List.zipWith Share.of (cases.map Prod.snd ++ [fallback]) c.armRenamings

/-- The names of a merged conditional are divided among its parts. The supply `left`
is the one that the merge leaves behind. -/
structure Partition (cases : List (Parametrized Expr × Parametrized Statement))
    (fallback : Parametrized Statement) (c : Conditional) (supply left : NameSupply) :
    Prop where
  conditionCount : c.conditionRenamings.length = cases.length
  armCount : c.armRenamings.length = cases.length + 1
  /-- The merged parameters are the targets of all parts, none of them lost. -/
  entries : c.query.params.entries = (c.shares cases fallback).flatMap Share.targets
  /-- A name is kept unless it is a target of an earlier part. -/
  settled : ∀ before s after, c.shares cases fallback = before ++ s :: after →
    s.Settled (Entries.keys (before.flatMap Share.targets)) supply.stem supply.issued left.issued
  distinct : (Entries.keys ((c.shares cases fallback).flatMap Share.targets)).Nodup
  legal : ∀ target ∈ Entries.keys ((c.shares cases fallback).flatMap Share.targets),
    isIdentifier target.text.toList = true
  injective : ∀ s ∈ c.shares cases fallback, ∀ a ∈ s.params.keys, ∀ b ∈ s.params.keys,
    s.renames.apply a = s.renames.apply b → a = b
  /-- The merged statement is one conditional of the renamed parts. -/
  body : ∃ choice : Choice, c.query.body = ⟨⟨[.choice choice]⟩, [], .distinct⟩ ∧
    choice.conditions = List.zipWith (fun q r => r.rename q.body) (cases.map Prod.fst)
      c.conditionRenamings ∧
    choice.arms = List.zipWith (fun q r => r.rename q.body) (cases.map Prod.snd ++ [fallback])
      c.armRenamings
  placeholders : c.query.body.placeholders =
    (c.shares cases fallback).flatMap Share.renamedPlaceholders
  /-- A placeholder keeps its kind, and its new name is a target of its own part. -/
  within : ∀ s ∈ c.shares cases fallback, ∀ p ∈ s.placeholders,
    (s.renames.applyTo p).kind = p.kind ∧
      (s.renames.applyTo p).name ∈ Entries.keys s.targets

/-! ## Assembling -/

/-- A conditional that can be built is made of the given cases and fallback. -/
theorem build_ok {cases : List (Expr × Statement)} {fallback : Statement} {choice : Choice}
    (h : Choice.build cases fallback = .ok choice) :
    choice.cases = cases ∧ choice.fallback = fallback := by
  unfold Choice.build at h
  split at h
  · cases h
  · next first rest =>
      dsimp only at h
      split at h
      · cases h
      · obtain ⟨columns, -, hchoice⟩ := exists_of_bind_ok h
        cases hchoice
        exact ⟨rfl, rfl⟩

/-- A merged statement is one query with one conditional in it. -/
theorem statement_ok {cases : List (Expr × Statement)} {fallback body : Statement}
    (h : statement cases fallback = .ok body) :
    ∃ choice : Choice, body = ⟨⟨[.choice choice]⟩, [], .distinct⟩ ∧
      Choice.build cases fallback = .ok choice := by
  obtain ⟨choice, hchoice, hsingle⟩ := exists_of_bind_ok h
  obtain ⟨-, -, hbody⟩ := exists_of_bind_ok hsingle
  cases hbody
  exact ⟨choice, rfl, hchoice⟩

/-- What a successful merge has done: it has absorbed the conditions, then the arms and
the fallback, and put the parts that came out of that together. -/
theorem absorbed_of_select {cases : List (Parametrized Expr × Parametrized Statement)}
    {fallback : Parametrized Statement} {supply left : NameSupply} {c : Conditional}
    {events : List Event}
    (h : select cases (some fallback) supply = (⟨.ok c, events⟩, left)) :
    ∃ (m m' : Claims) (conditions : List (Expr × Renaming)) (arms : List (Statement × Renaming))
      (choice : Choice),
      Claims.absorbAll ⟨Table.empty, supply, []⟩ (cases.map Prod.fst) = (m, .ok conditions) ∧
      m.absorbAll (cases.map Prod.snd ++ [fallback]) = (m', .ok arms) ∧ m'.supply = left ∧
      m'.claimed = c.query.params ∧ conditions.map Prod.snd = c.conditionRenamings ∧
      arms.map Prod.snd = c.armRenamings ∧
      c.query.body = ⟨⟨[.choice choice]⟩, [], .distinct⟩ ∧
      Choice.build choice.cases choice.fallback = .ok choice ∧
      choice.conditions = conditions.map Prod.fst ∧ choice.arms = arms.map Prod.fst := by
  unfold select at h
  dsimp only at h
  split at h
  · simp at h
  · split at h
    · simp at h
    · next m conditions hconditions =>
        split at h
        · simp at h
        · next m₁ arms harms =>
            split at h
            · simp at h
            · next m' last hlast =>
                simp only [Prod.mk.injEq, Logged.mk.injEq] at h
                obtain ⟨⟨hassemble, -⟩, rfl⟩ := h
                obtain ⟨body, hbody, hc⟩ := exists_of_bind_ok hassemble
                obtain ⟨choice, rfl, hbuild⟩ := statement_ok hbody
                obtain ⟨hcases, hfallback⟩ := build_ok hbuild
                cases hc
                have hcount : conditions.length = arms.length := by
                  rw [(Claims.run_of_absorbAll hconditions).1, (Claims.run_of_absorbAll harms).1,
                    List.length_map, List.length_map]
                refine ⟨m, m', conditions, arms ++ [last], choice, hconditions,
                  Claims.absorbAll_concat harms hlast, rfl, rfl, rfl, ?_, rfl, ?_, ?_, ?_⟩
                · rw [List.map_append]
                  rfl
                · rw [hcases, hfallback]
                  exact hbuild
                · rw [Choice.conditions, hcases, List.map_fst_zip]
                  simp [hcount]
                · rw [Choice.arms, hcases, hfallback, List.map_snd_zip, List.map_append]
                  · rfl
                  · simp [hcount]

section Select

variable {cases : List (Parametrized Expr × Parametrized Statement)}
  {fallback : Parametrized Statement} {supply left : NameSupply} {c : Conditional}
  {events : List Event}

/-- A successful merge is a run over its parts. -/
theorem run_of_select (h : select cases (some fallback) supply = (⟨.ok c, events⟩, left)) :
    c.conditionRenamings.length = cases.length ∧ c.armRenamings.length = cases.length + 1 ∧
    ∃ m, Claims.Run ⟨Table.empty, supply, []⟩ (c.shares cases fallback) m ∧
      m.claimed = c.query.params ∧ m.supply = left := by
  obtain ⟨m, m', conditions, arms, choice, hconditions, harms, hsupply, hparams,
    hconditionRenamings, harmRenamings, -⟩ := absorbed_of_select h
  obtain ⟨hconditionCount, -, hconditionRun⟩ := Claims.run_of_absorbAll hconditions
  obtain ⟨harmCount, -, harmRun⟩ := Claims.run_of_absorbAll harms
  -- the claims of the arms begin where those of the conditions end
  have hrun := hconditionRun.append harmRun
  rw [hconditionRenamings, harmRenamings] at hrun
  refine ⟨?_, ?_, m', hrun, hparams, hsupply⟩
  · rw [← hconditionRenamings, List.length_map, hconditionCount, List.length_map]
  · simp [← harmRenamings, harmCount]

/-- Parts of one sort that take part in a merge, each with the renaming that it underwent. -/
structure TakePart {β : Type} [Renameable β] (shares : List Share) (qs : List (Parametrized β))
    (rs : List Renaming) : Prop where
  count : rs.length = qs.length
  among : List.zipWith Share.of qs rs ⊆ shares

/-- The conditions take part in a merge, and so do the arms with the fallback. -/
theorem parts_of_select (h : select cases (some fallback) supply = (⟨.ok c, events⟩, left)) :
    ∃ m, Claims.Run ⟨Table.empty, supply, []⟩ (c.shares cases fallback) m ∧
      m.claimed = c.query.params ∧
      TakePart (c.shares cases fallback) (cases.map Prod.fst) c.conditionRenamings ∧
      TakePart (c.shares cases fallback) (cases.map Prod.snd ++ [fallback]) c.armRenamings := by
  obtain ⟨hconditions, harms, m, hrun, hclaimed, -⟩ := run_of_select h
  refine ⟨m, hrun, hclaimed, ⟨?_, List.subset_append_left _ _⟩, ⟨?_, List.subset_append_right _ _⟩⟩
  · rw [hconditions, List.length_map]
  · simp [harms]

section TakePart

variable {β : Type} [Renameable β] {shares : List Share} {qs : List (Parametrized β)}
  {rs : List Renaming}

/-- The renaming of a part stands at the index of the part. -/
theorem TakePart.exists_renaming (h : TakePart shares qs rs) {i : Nat} {q : Parametrized β}
    (hq : qs[i]? = some q) : ∃ r, rs[i]? = some r ∧ Share.of q r ∈ shares := by
  have hi : i < rs.length := by
    rw [h.count]
    exact (List.getElem?_eq_some_iff.1 hq).1
  refine ⟨rs[i], List.getElem?_eq_getElem hi, h.among (List.mem_of_getElem? (i := i) ?_)⟩
  rw [List.getElem?_zipWith, hq, List.getElem?_eq_getElem hi]

/-- Every renaming is that of a part. -/
theorem TakePart.exists_part (h : TakePart shares qs rs) {r : Renaming} (hr : r ∈ rs) :
    ∃ q : Parametrized β, Share.of q r ∈ shares := by
  obtain ⟨i, hi⟩ := List.mem_iff_getElem?.1 hr
  have hlength : i < qs.length := by
    rw [← h.count]
    exact (List.getElem?_eq_some_iff.1 hi).1
  obtain ⟨r', hr', hshare⟩ := h.exists_renaming (List.getElem?_eq_getElem hlength)
  obtain rfl : r' = r := Option.some.inj (hr'.symm.trans hi)
  exact ⟨_, hshare⟩

end TakePart

/-- What holds of every part under every renaming holds of the renamed parts. -/
theorem forall_mem_zipWith_rename {β : Type} [Renameable β] {qs : List (Parametrized β)}
    {rs : List Renaming} {holds : β → Prop}
    (h : ∀ q ∈ qs, ∀ r : Renaming, holds (r.rename q.body)) :
    ∀ b ∈ List.zipWith (fun q r => r.rename q.body) qs rs, holds b := by
  intro b hb
  obtain ⟨i, hi⟩ := List.mem_iff_getElem?.1 hb
  obtain ⟨q, r, hq, -, rfl⟩ := List.getElem?_zipWith_eq_some.1 hi
  exact h q (List.mem_of_getElem? hq) r

/-- A merged statement is one conditional, built of the renamed parts. -/
theorem choice_of_select (h : select cases (some fallback) supply = (⟨.ok c, events⟩, left)) :
    ∃ choice : Choice, c.query.body = ⟨⟨[.choice choice]⟩, [], .distinct⟩ ∧
      Choice.build choice.cases choice.fallback = .ok choice ∧
      choice.conditions = List.zipWith (fun q r => r.rename q.body) (cases.map Prod.fst)
        c.conditionRenamings ∧
      choice.arms = List.zipWith (fun q r => r.rename q.body) (cases.map Prod.snd ++ [fallback])
        c.armRenamings := by
  obtain ⟨m, m', conditions, arms, choice, hconditions, harms, -, -, hconditionRenamings,
    harmRenamings, hbody, hbuild, hchoiceConditions, hchoiceArms⟩ := absorbed_of_select h
  refine ⟨choice, hbody, hbuild, ?_, ?_⟩
  · rw [hchoiceConditions, (Claims.run_of_absorbAll hconditions).2.1, hconditionRenamings]
  · rw [hchoiceArms, (Claims.run_of_absorbAll harms).2.1, harmRenamings]

/-- The conditional of a merged statement has the renamed parts in their order. -/
theorem body_of_select (h : select cases (some fallback) supply = (⟨.ok c, events⟩, left)) :
    ∃ choice : Choice, c.query.body = ⟨⟨[.choice choice]⟩, [], .distinct⟩ ∧
      choice.conditions = List.zipWith (fun q r => r.rename q.body) (cases.map Prod.fst)
        c.conditionRenamings ∧
      choice.arms = List.zipWith (fun q r => r.rename q.body) (cases.map Prod.snd ++ [fallback])
        c.armRenamings := by
  obtain ⟨choice, hbody, -, hconditions, harms⟩ := choice_of_select h
  exact ⟨choice, hbody, hconditions, harms⟩

end Select

/-! ## Placeholders of the merged statement -/

/-- Renamed parts have the renamed placeholders of their shares. -/
theorem placeholders_rename {β : Type} [Renameable β] [LawfulRenameable β]
    (qs : List (Parametrized β)) (rs : List Renaming) :
    (List.zipWith (fun q r => r.rename q.body) qs rs).flatMap Renameable.placeholders =
      (List.zipWith Share.of qs rs).flatMap Share.renamedPlaceholders := by
  -- parts and renamings run in step, and a part without a renaming is left out of both
  induction qs generalizing rs with
  | nil => rfl
  | cons q rest ih =>
      cases rs with
      | nil => rfl
      | cons r others =>
          rw [List.zipWith_cons_cons, List.zipWith_cons_cons, List.flatMap_cons,
            List.flatMap_cons, ih, Renaming.rename, LawfulRenameable.placeholders_mapPlaceholders]
          rfl

theorem armPlaceholders_eq_flatMap (cases : List (Expr × Statement)) :
    Choice.armPlaceholders cases = (cases.map Prod.snd).flatMap Statement.placeholders := by
  induction cases with
  | nil => rfl
  | cons first rest ih =>
      obtain ⟨condition, arm⟩ := first
      rw [Choice.armPlaceholders, ih]
      rfl

/-- The placeholders of a conditional are those of its conditions, then those of its arms. -/
theorem placeholders_choice (choice : Choice) :
    choice.placeholders = choice.conditions.flatMap Expr.placeholders ++
      choice.arms.flatMap Statement.placeholders := by
  obtain ⟨cases, fallback, columns⟩ := choice
  simp [Choice.placeholders, Choice.conditions, Choice.arms, armPlaceholders_eq_flatMap]

theorem placeholders_single (choice : Choice) (union : UnionMode) :
    (⟨⟨[.choice choice]⟩, [], union⟩ : Statement).placeholders = choice.placeholders := by
  simp [Statement.placeholders, Query.placeholders, Query.listPlaceholders,
    Clause.listPlaceholders, Clause.placeholders]

/-- The merged statement uses the placeholders of its parts, renamed and in order. -/
theorem placeholders_of_select
    {cases : List (Parametrized Expr × Parametrized Statement)}
    {fallback : Parametrized Statement} {supply left : NameSupply} {c : Conditional}
    {events : List Event}
    (h : select cases (some fallback) supply = (⟨.ok c, events⟩, left)) :
    c.query.body.placeholders = (c.shares cases fallback).flatMap Share.renamedPlaceholders := by
  obtain ⟨choice, hbody, hconditions, harms⟩ := body_of_select h
  rw [hbody, placeholders_single, placeholders_choice, hconditions, harms, shares,
    List.flatMap_append, ← placeholders_rename, ← placeholders_rename]
  rfl

/-! ## The partition -/

/-- A successful merge divides its names among its parts. -/
theorem partition_select {cases : List (Parametrized Expr × Parametrized Statement)}
    {fallback : Parametrized Statement} {supply left : NameSupply} {c : Conditional}
    {events : List Event}
    (h : select cases (some fallback) supply = (⟨.ok c, events⟩, left)) :
    Partition cases fallback c supply left := by
  obtain ⟨hconditionCount, harmCount, m, hrun, hparams, rfl⟩ := run_of_select h
  obtain ⟨choice, hbody, hconditions, harms⟩ := body_of_select h
  constructor
  case conditionCount => exact hconditionCount
  case armCount => exact harmCount
  case entries =>
    rw [← hparams]
    exact hrun.entries
  case settled => exact fun before s after hsplit => hrun.settled hsplit
  case distinct => exact hrun.distinct
  case legal => exact fun target _ => target.legal
  case injective =>
    exact fun s hs a ha b hb hab => Claims.injective_of_distinct hrun.distinct hs ha hb hab
  case body => exact ⟨choice, hbody, hconditions, harms⟩
  case placeholders => exact placeholders_of_select h
  case within => exact fun s hs p hp => ⟨rfl, hrun.within hs hp⟩

namespace Sample

def x : Identifier := ⟨"x", by decide⟩

def x0 : Identifier := ⟨"x0", by decide⟩

/-- A statement that returns the value of a placeholder. -/
def returning (name : Identifier) : Statement :=
  ⟨⟨[.returning ⟨false, .items ⟨.placeholder ⟨name, .any⟩, some x⟩ []⟩]⟩, [], .distinct⟩

def condition : Parametrized Expr := ⟨⟨[(x, .boolean)], by decide⟩, .placeholder ⟨x, .boolean⟩⟩

def arm : Parametrized Statement := ⟨⟨[(x, .any)], by decide⟩, returning x⟩

def fallback : Parametrized Statement :=
  ⟨⟨[(x0, .any), (x, .any)], by decide⟩, returning x0⟩

end Sample

/-- Three parts declare `x`, and the last one also a name that the supply has handed
out by then. Only the condition keeps its name. -/
theorem partition_sample : ∃ c events left,
    select [(Sample.condition, Sample.arm)] (some Sample.fallback) (.ofStem Sample.x) =
      (⟨.ok c, events⟩, left) ∧
    c.query.params.keys.map Identifier.text = ["x", "x0", "x1", "x2"] ∧
    Partition [(Sample.condition, Sample.arm)] Sample.fallback c (.ofStem Sample.x) left :=
  ⟨_, _, _, rfl, rfl, partition_select rfl⟩

end Conditional

end GraphQuery
