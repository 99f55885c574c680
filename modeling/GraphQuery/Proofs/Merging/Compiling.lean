import GraphQuery.Proofs.Compiling.Uses
import GraphQuery.Proofs.Merging.Partition

/-!
# Compiling a merged conditional

Compiling asks that every placeholder be declared, at a kind that its declaration accepts.
In a merged conditional the placeholders of a part stand under their merged names, and a
merged name is declared at the kind at which its part declares the name that it stands for.
Checking the merged statement is then checking part after part.

Main statement: `Conditional.compile_select`, a conditional compiles exactly if each of its
parts does, and otherwise the first part that does not is to blame.
-/

set_option autoImplicit false

namespace GraphQuery

/-! ## Parts under their merged names -/

/-- The error with the name of a parameter of the wrong kind replaced. -/
def Error.renamed (r : Renaming) : Error → Error
  | .kindConflict name declared used => .kindConflict (r.apply name) declared used
  | e => e

/-- The declarations hold all that a part needs, under its merged names. -/
structure Share.Within (s : Share) (merged : Declarations) : Prop where
  declared : ∀ p ∈ s.placeholders, p.name ∈ s.params.keys
  kept : ∀ target kind, (target, kind) ∈ s.targets → merged.get? target = some kind

namespace Share

variable {s : Share} {merged : Declarations}

/-- A merged name has the kind of the name that it stands for. -/
theorem Within.get?_apply (h : s.Within merged) {name : Identifier} {kind : Kind}
    (hname : s.params.get? name = some kind) :
    merged.get? (s.renames.apply name) = some kind := by
  apply h.kept
  exact List.mem_map.2 ⟨(name, kind), Table.get?_eq_some_iff.1 hname, rfl⟩

/-- A use is checked in the merged statement as it is in its part, and its error speaks of the
merged name. -/
theorem Within.checkUse (h : s.Within merged) {p : Placeholder} (hp : p ∈ s.placeholders) :
    merged.checkUse (s.renames.applyTo p) =
      (s.params.checkUse p).mapError (Error.renamed s.renames) := by
  obtain ⟨kind, hkind⟩ := Table.mem_keys_iff.1 (h.declared p hp)
  have hmerged : merged.get? (s.renames.applyTo p).name = some kind := h.get?_apply hkind
  rw [Declarations.checkUse_of_get? hmerged, Declarations.checkUse_of_get? hkind]
  show (if kind.accepts p.kind then _ else _) = _
  split
  · rfl
  · rfl

/-- All uses of a part are checked in the merged statement as in the part. -/
theorem Within.checkUses (h : s.Within merged) :
    merged.checkUses s.renamedPlaceholders =
      (s.params.checkUses s.placeholders).mapError (Error.renamed s.renames) := by
  suffices hsub : ∀ ps : List Placeholder, (∀ p ∈ ps, p ∈ s.placeholders) →
      merged.checkUses (ps.map s.renames.applyTo) =
        (s.params.checkUses ps).mapError (Error.renamed s.renames) from
    hsub s.placeholders fun _ hp => hp
  intro ps hps
  induction ps with
  | nil => rfl
  | cons p rest ih =>
      obtain ⟨hp, hrest⟩ := List.forall_mem_cons.1 hps
      rw [List.map_cons, Declarations.checkUses_cons, Declarations.checkUses_cons, h.checkUse hp,
        ih hrest]
      cases s.params.checkUse p with
      | error e => rfl
      | ok _ => rfl

/-- A part whose placeholders are all declared can only use one at a wrong kind. -/
theorem Within.conflict (h : s.Within merged) {e : Error}
    (herror : s.params.checkUses s.placeholders = .error e) :
    ∃ name declared used, e = .kindConflict name declared used := by
  have hdeclared := h.declared
  generalize s.placeholders = ps at hdeclared herror
  induction ps with
  | nil => cases herror
  | cons p rest ih =>
      obtain ⟨hp, hrest⟩ := List.forall_mem_cons.1 hdeclared
      obtain ⟨kind, hkind⟩ := Table.mem_keys_iff.1 hp
      rw [Declarations.checkUses_cons, Declarations.checkUse_of_get? hkind] at herror
      split at herror
      · exact ih hrest herror
      · cases herror
        exact ⟨p.name, kind, p.kind, rfl⟩

end Share

/-- The shares of a run keep their kinds under the merged names. -/
theorem Claims.Run.share_within {supply : NameSupply} {shares : List Share} {m : Claims}
    (h : Claims.Run ⟨Table.empty, supply, []⟩ shares m) {s : Share} (hs : s ∈ shares) :
    s.Within m.claimed := by
  refine ⟨fun p hp => h.declared hs hp, fun target kind htarget => ?_⟩
  apply Table.get?_eq_some_iff.2
  rw [h.entries]
  exact List.mem_flatMap.2 ⟨s, hs, htarget⟩

/-! ## The first part that fails -/

/-- The error `e` stems from the first part that fails by itself: the part uses one of its
parameters at a wrong kind, and `e` says so under the merged name of the parameter. -/
def FirstConflict {α : Type} (alone : Parametrized Fragment → Except Error α)
    (parts : List (Parametrized Fragment)) (renamings : List Renaming) (e : Error) : Prop :=
  ∃ (i : Nat) (q : Parametrized Fragment) (r : Renaming) (name : Identifier)
    (declared used : Kind), parts[i]? = some q ∧ renamings[i]? = some r ∧
    (∀ (j : Nat) (p : Parametrized Fragment), j < i → parts[j]? = some p →
      ∃ a, alone p = .ok a) ∧
    alone q = .error (.kindConflict name declared used) ∧
    e = .kindConflict (r.apply name) declared used

namespace FirstConflict

variable {α β : Type} {alone : Parametrized Fragment → Except Error α}
  {alone' : Parametrized Fragment → Except Error β} {q : Parametrized Fragment} {r : Renaming}
  {parts : List (Parametrized Fragment)} {renamings : List Renaming} {e : Error}

/-- The first part conflicts. -/
theorem here {name : Identifier} {declared used : Kind}
    (h : alone q = .error (.kindConflict name declared used)) :
    FirstConflict alone (q :: parts) (r :: renamings)
      (.kindConflict (r.apply name) declared used) := by
  refine ⟨0, q, r, name, declared, used, rfl, rfl, ?_, h, rfl⟩
  intro j p hj
  omega

/-- The first part compiles, and a later one conflicts. -/
theorem there {a : α} (hq : alone q = .ok a) (h : FirstConflict alone parts renamings e) :
    FirstConflict alone (q :: parts) (r :: renamings) e := by
  obtain ⟨i, p, r', name, declared, used, hp, hr, hbefore, hfail, he⟩ := h
  refine ⟨i + 1, p, r', name, declared, used, hp, hr, ?_, hfail, he⟩
  intro j p' hj hp'
  cases j with
  | zero =>
      cases hp'
      exact ⟨a, hq⟩
  | succ j => exact hbefore j p' (by omega) hp'

/-- Two ways to run parts that fail alike have the same part to blame. -/
theorem congr (hok : ∀ q a, alone q = .ok a → ∃ b, alone' q = .ok b)
    (herror : ∀ q e, alone q = .error e → alone' q = .error e)
    (h : FirstConflict alone parts renamings e) : FirstConflict alone' parts renamings e := by
  obtain ⟨i, q, r, name, declared, used, hq, hr, hbefore, hfail, he⟩ := h
  refine ⟨i, q, r, name, declared, used, hq, hr, ?_, herror q _ hfail, he⟩
  intro j p hj hp
  obtain ⟨a, ha⟩ := hbefore j p hj hp
  exact hok p a ha

end FirstConflict

namespace Parametrized

/-- The check of a fragment against its own declarations. -/
def checked (q : Parametrized Fragment) : Except Error Unit :=
  q.params.checkUses q.body.placeholders

/-- The check of merged parts: they all pass it, or the first that does not is to blame. -/
theorem checkUses_parts {merged : Declarations} {qs : List (Parametrized Fragment)}
    {rs : List Renaming} (hcount : rs.length = qs.length)
    (hwithin : ∀ s ∈ List.zipWith Share.of qs rs, s.Within merged) :
    ((∀ q ∈ qs, q.checked = .ok ()) ∧
      merged.checkUses ((List.zipWith Share.of qs rs).flatMap Share.renamedPlaceholders) = .ok ()) ∨
    ∃ e, merged.checkUses ((List.zipWith Share.of qs rs).flatMap Share.renamedPlaceholders) =
        .error e ∧ FirstConflict checked qs rs e := by
  induction qs generalizing rs with
  | nil =>
      left
      exact ⟨fun q hq => (List.not_mem_nil hq).elim, rfl⟩
  | cons q rest ih =>
      cases rs with
      | nil => cases hcount
      | cons r others =>
          obtain ⟨hfirst, hrest⟩ := List.forall_mem_cons.1 hwithin
          have hshare : (Share.of q r).params.checkUses (Share.of q r).placeholders = q.checked :=
            rfl
          rw [List.zipWith_cons_cons, List.flatMap_cons, Declarations.checkUses_append,
            hfirst.checkUses, hshare]
          cases hq : q.checked with
          | error e =>
              right
              obtain ⟨name, declared, used, rfl⟩ := hfirst.conflict hq
              exact ⟨_, rfl, .here hq⟩
          | ok _ =>
              rcases ih (Nat.succ.inj hcount) hrest with ⟨hall, hmerged⟩ | ⟨e, hmerged, hconflict⟩
              · exact .inl ⟨List.forall_mem_cons.2 ⟨hq, hall⟩, hmerged⟩
              · exact .inr ⟨e, hmerged, hconflict.there hq⟩

end Parametrized

namespace Conditional

/-- The parts of a merge as fragments that could be compiled alone, with the declarations that
each of them brings along. The conditions come before the arms. -/
def fragments (cases : List (Parametrized Expr × Parametrized Statement))
    (fallback : Parametrized Statement) : List (Parametrized Fragment) :=
  (cases.map Prod.fst).map (fun q => ⟨q.params, .expr q.body⟩) ++
    (cases.map Prod.snd ++ [fallback]).map fun q => ⟨q.params, .statement q.body⟩

section Select

variable {cases : List (Parametrized Expr × Parametrized Statement)}
  {fallback : Parametrized Statement} {supply left : NameSupply} {c : Conditional}
  {events : List Event}

/-- The shares are those of the fragments under all renamings. -/
theorem shares_eq (hconditions : c.conditionRenamings.length = cases.length) :
    c.shares cases fallback = List.zipWith Share.of (fragments cases fallback)
      (c.conditionRenamings ++ c.armRenamings) := by
  have hexpr : List.zipWith Share.of ((cases.map Prod.fst).map fun q =>
      (⟨q.params, .expr q.body⟩ : Parametrized Fragment)) c.conditionRenamings =
        List.zipWith Share.of (cases.map Prod.fst) c.conditionRenamings :=
    List.zipWith_map_left
  have hstatement : List.zipWith Share.of ((cases.map Prod.snd ++ [fallback]).map fun q =>
      (⟨q.params, .statement q.body⟩ : Parametrized Fragment)) c.armRenamings =
        List.zipWith Share.of (cases.map Prod.snd ++ [fallback]) c.armRenamings :=
    List.zipWith_map_left
  rw [fragments, List.zipWith_append, hexpr, hstatement, shares]
  simp [hconditions]

/-- A merged conditional compiles exactly if every part compiles by itself. It never lacks a
declaration; if it fails, the first part that does not compile fails by itself in the same
way, under the part's own name for the parameter. -/
theorem compile_select (h : select cases (some fallback) supply = (⟨.ok c, events⟩, left))
    (names own : NameSupply) (layout : Layout) :
    ((∃ t, (c.compile names).1.result = .ok t) ↔
      ∀ q ∈ fragments cases fallback, ∃ t, (q.compile layout own).1.result = .ok t) ∧
    (∀ name, (c.compile names).1.result ≠ .error (.undeclaredParameter name)) ∧
    ∀ e, (c.compile names).1.result = .error e →
      FirstConflict (fun q => (q.compile layout own).1.result) (fragments cases fallback)
        (c.conditionRenamings ++ c.armRenamings) e := by
  obtain ⟨hconditions, harms, m, hrun, hclaimed, -⟩ := run_of_select h
  have hcount : (c.conditionRenamings ++ c.armRenamings).length =
      (fragments cases fallback).length := by
    simp [fragments, hconditions, harms]
  have hwithin : ∀ s ∈ List.zipWith Share.of (fragments cases fallback)
      (c.conditionRenamings ++ c.armRenamings), s.Within c.query.params := by
    rw [← shares_eq hconditions, ← hclaimed]
    exact fun s hs => hrun.share_within hs
  have hmerged := Parametrized.result_compile ⟨c.query.params, .statement c.query.body⟩ .compact
    names
  have hplaceholders : (Fragment.statement c.query.body).placeholders = _ :=
    placeholders_of_select h
  rw [hplaceholders, shares_eq hconditions] at hmerged
  have halone : ∀ q a, Parametrized.checked q = .ok a →
      ∃ t, (q.compile layout own).1.result = .ok t := by
    intro q a hq
    rw [q.result_compile, ← Parametrized.checked, hq]
    exact ⟨_, rfl⟩
  have hfails : ∀ q e, Parametrized.checked q = .error e →
      (q.compile layout own).1.result = .error e := by
    intro q e hq
    rw [q.result_compile, ← Parametrized.checked, hq]
    rfl
  rcases Parametrized.checkUses_parts hcount hwithin with ⟨hall, hpass⟩ | ⟨e, hfail, hconflict⟩
  · rw [hpass] at hmerged
    have hcompile : (c.compile names).1.result = .ok _ := hmerged
    rw [hcompile]
    refine ⟨⟨fun _ q hq => halone q () (hall q hq), fun _ => ⟨_, rfl⟩⟩, ?_, ?_⟩
    · rintro name ⟨⟩
    · rintro e ⟨⟩
  · rw [hfail] at hmerged
    have hcompile : (c.compile names).1.result = .error e := hmerged
    have hblame := hconflict.congr halone hfails
    obtain ⟨i, q, r, name, declared, used, hq, -, -, hchecked, rfl⟩ := hconflict
    have hown := hfails q _ hchecked
    rw [hcompile]
    refine ⟨⟨?_, ?_⟩, ?_, ?_⟩
    · rintro ⟨t, ⟨⟩⟩
    · intro hall
      obtain ⟨t, ht⟩ := hall q (List.mem_of_getElem? hq)
      rw [hown] at ht
      cases ht
    · rintro name ⟨⟩
    · rintro e ⟨⟩
      exact hblame

end Select

namespace Sample

/-- An arm that declares a parameter as a number and uses it as a truth value. -/
def mistyped : Parametrized Statement :=
  ⟨⟨[(x, .integer)], by decide⟩,
    ⟨⟨[.returning ⟨false, .items ⟨.placeholder ⟨x, .boolean⟩, some x⟩ []⟩]⟩, [], .distinct⟩⟩

end Sample

/-- The merge succeeds, and the conflict in the arm is found under the merged name. -/
theorem conflict_sample : ∃ c events left,
    select [(Sample.condition, Sample.mistyped)] (some Sample.fallback) (.ofStem Sample.x) =
      (⟨.ok c, events⟩, left) ∧
    (c.compile left).1.result = .error (.kindConflict Sample.x0 .integer .boolean) :=
  ⟨_, _, _, rfl, rfl⟩

/-- The merged statement fails on the new name of a parameter, and the arm that is to blame
fails by itself on the parameter's own name. -/
theorem compile_select_mistyped : ∃ c events left,
    select [(Sample.condition, Sample.mistyped)] (some Sample.fallback) (.ofStem Sample.x) =
      (⟨.ok c, events⟩, left) ∧
    ∃ (i : Nat) (q : Parametrized Fragment) (r : Renaming) (name : Identifier),
      (fragments [(Sample.condition, Sample.mistyped)] Sample.fallback)[i]? = some q ∧
      (q.compile .pretty .fresh).1.result = .error (.kindConflict name .integer .boolean) ∧
      r.apply name = Sample.x0 := by
  obtain ⟨c, events, left, hselect, hconflict⟩ := conflict_sample
  obtain ⟨-, -, hfirst⟩ := compile_select hselect left .fresh .pretty
  obtain ⟨i, q, r, name, declared, used, hq, -, -, hown, herror⟩ := hfirst _ hconflict
  obtain ⟨hname, rfl, rfl⟩ := Error.kindConflict.inj herror
  exact ⟨c, events, left, hselect, i, q, r, name, hq, hown, hname.symm⟩

end Conditional

end GraphQuery
