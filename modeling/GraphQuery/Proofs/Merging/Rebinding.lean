import GraphQuery.Proofs.Binding.Renamed
import GraphQuery.Proofs.Merging.Partition

/-!
# Bindings under merged names

A merge gives a part's names targets that are apart from each other, from every name that is
renamed and from all names of the part. So renaming twice is renaming once, and values under
names that the part declares are never lost. Nothing keeps a caller from a binding under a
target, however, and then one of two values is.

Main statements: `Conditional.carried_bindings` tells what becomes of every value, and
`Conditional.bindings_laws` are the laws of merging and rewriting.
-/

set_option autoImplicit false

namespace GraphQuery

/-! ## Renamings that a merge makes -/

namespace Claims.Run

variable {supply : NameSupply} {shares : List Share} {m : Claims} {s : Share}

/-- The names that a part replaces are claimed before the part comes, and what it makes of
any of its names is not. -/
theorem exists_earlier (h : Run ⟨Table.empty, supply, []⟩ shares m) (hs : s ∈ shares) :
    ∃ earlier : List Identifier,
      (∀ key, key ∈ s.renames.keys ↔ ∃ name ∈ s.params.keys, name ∈ earlier ∧ name.text = key) ∧
      (∀ name ∈ s.params.keys, name ∉ earlier → s.renames.apply name = name) ∧
      ∀ name ∈ s.params.keys, s.renames.apply name ∉ earlier := by
  obtain ⟨before, after, rfl⟩ := List.append_of_mem hs
  have hsettled := h.settled rfl
  have hdistinct := h.distinct
  rw [List.flatMap_append, List.flatMap_cons, Entries.keys, List.map_append,
    List.map_append] at hdistinct
  refine ⟨Entries.keys (before.flatMap Share.targets), ?_, hsettled.kept, ?_⟩
  · intro key
    rw [hsettled.renamed]
    simp only [List.mem_map, List.mem_filter, decide_eq_true_eq]
    constructor
    · rintro ⟨name, ⟨hname, hearlier⟩, htext⟩
      exact ⟨name, hname, hearlier, htext⟩
    · rintro ⟨name, hname, hearlier, htext⟩
      exact ⟨name, ⟨hname, hearlier⟩, htext⟩
  · -- the targets of a part are none of those before it
    intro name hname hearlier
    have htarget : s.renames.apply name ∈ s.targets.map Prod.fst := by
      rw [← Entries.keys, s.keys_targets]
      exact List.mem_map_of_mem hname
    exact (List.nodup_append.1 hdistinct).2.2 _ hearlier _ (List.mem_append_left _ htarget) rfl

/-- The renaming of a share keeps the names of the part apart from the new ones. -/
theorem separates (h : Run ⟨Table.empty, supply, []⟩ shares m) (hs : s ∈ shares) :
    s.renames.Separates := by
  obtain ⟨earlier, hkeys, -, hfresh⟩ := h.exists_earlier hs
  constructor
  · intro a ha b hb hab
    obtain ⟨name, hname, -, rfl⟩ := (hkeys a).1 ha
    obtain ⟨other, hother, -, rfl⟩ := (hkeys b).1 hb
    rw [Renaming.applyText_text, Renaming.applyText_text] at hab
    have htarget := Identifier.ext_text hab
    rw [Claims.injective_of_distinct h.distinct hs hname hother htarget]
  · intro a ha htarget
    obtain ⟨name, hname, -, rfl⟩ := (hkeys a).1 ha
    rw [Renaming.applyText_text] at htarget
    obtain ⟨other, -, hearlier, htext⟩ := (hkeys _).1 htarget
    rw [Identifier.ext_text htext] at hearlier
    exact hfresh name hname hearlier

/-- The target of a name that a part replaces is no name of the part. -/
theorem foreign (h : Run ⟨Table.empty, supply, []⟩ shares m) (hs : s ∈ shares)
    {name : Identifier} (hname : name ∈ s.params.keys) (hrenamed : name.text ∈ s.renames.keys) :
    s.renames.apply name ∉ s.params.keys := by
  obtain ⟨earlier, hkeys, hkept, hfresh⟩ := h.exists_earlier hs
  intro htarget
  obtain ⟨other, -, hearlier, htext⟩ := (hkeys _).1 hrenamed
  rw [Identifier.ext_text htext] at hearlier
  -- a target that the part declares is kept, so it would have two sources
  have hsame := hkept _ htarget (hfresh name hname)
  have hsource := Claims.injective_of_distinct h.distinct hs htarget hname hsame
  rw [← hsource] at hearlier
  exact hfresh name hname hearlier

/-- Names that a part declares are kept apart, as texts too. -/
theorem applyText_injective (h : Run ⟨Table.empty, supply, []⟩ shares m) (hs : s ∈ shares)
    {a b : String} (ha : s.params.declares a = true) (hb : s.params.declares b = true)
    (hab : s.renames.applyText a = s.renames.applyText b) : a = b := by
  obtain ⟨name, hname, rfl⟩ := List.mem_map.1 (Bindings.mem_texts_iff.2 ha)
  obtain ⟨other, hother, rfl⟩ := List.mem_map.1 (Bindings.mem_texts_iff.2 hb)
  rw [Renaming.applyText_text, Renaming.applyText_text] at hab
  have htarget := Identifier.ext_text hab
  rw [Claims.injective_of_distinct h.distinct hs hname hother htarget]

end Claims.Run

namespace Conditional

/-! ## Values for one of several parts -/

section TakePart

variable {β : Type} [Renameable β] {supply : NameSupply} {shares : List Share} {m : Claims}
  {qs : List (Parametrized β)} {rs : List Renaming}

theorem rebind_of_getElem? {i : Nat} {r : Renaming} (h : rs[i]? = some r) (values : Bindings) :
    rebind rs i values = values.renamed r := by
  rw [rebind, h]

/-- Names that a part declares do not clash with each other. -/
theorem clashes_of_share (hrun : Claims.Run ⟨Table.empty, supply, []⟩ shares m) {s : Share}
    (hs : s ∈ shares) {values : Bindings}
    (hown : ∀ name ∈ values.keys, s.params.declares name = true) :
    values.clashes s.renames = [] := by
  rw [List.eq_nil_iff_forall_not_mem]
  intro key hclash
  obtain ⟨hkey, hrenamed, htarget⟩ := Bindings.mem_clashes_iff.1 hclash
  obtain ⟨name, hname, rfl⟩ := List.mem_map.1 (Bindings.mem_texts_iff.2 (hown key hkey))
  obtain ⟨other, hother, htext⟩ := List.mem_map.1 (Bindings.mem_texts_iff.2 (hown _ htarget))
  rw [Renaming.applyText_text] at htext
  rw [Identifier.ext_text htext] at hother
  exact hrun.foreign hs hname hrenamed hother

/-- Rebinding carries the values of every part over, and loses none under a name of its own. -/
theorem TakePart.carried (h : TakePart shares qs rs)
    (hrun : Claims.Run ⟨Table.empty, supply, []⟩ shares m) (values : Bindings) :
    ∀ i q, qs[i]? = some q → ∃ r, rs[i]? = some r ∧
      Bindings.Carried r values (rebind rs i values) ∧
      ((∀ name ∈ values.keys, q.params.declares name = true) → values.clashes r = []) := by
  intro i q hq
  obtain ⟨r, hr, hshare⟩ := h.exists_renaming hq
  refine ⟨r, hr, ?_, clashes_of_share hrun hshare⟩
  rw [rebind_of_getElem? hr]
  exact Bindings.carried_renamed (hrun.separates hshare) values

/-- Rebinding the values for a part twice is rebinding them once. -/
theorem TakePart.rebind_rebind (h : TakePart shares qs rs)
    (hrun : Claims.Run ⟨Table.empty, supply, []⟩ shares m) (i : Nat) (values : Bindings) :
    rebind rs i (rebind rs i values) = rebind rs i values := by
  cases hr : rs[i]? with
  | none => simp only [rebind, hr]
  | some r =>
      obtain ⟨q, hshare⟩ := h.exists_part (List.mem_of_getElem? hr)
      rw [rebind_of_getElem? hr, rebind_of_getElem? hr]
      exact Bindings.renamed_renamed (hrun.separates hshare) values

/-- Values under names that a part declares are merged before or after they are rebound. -/
theorem TakePart.rebind_merge (h : TakePart shares qs rs)
    (hrun : Claims.Run ⟨Table.empty, supply, []⟩ shares m) :
    ∀ i q, qs[i]? = some q → ∀ a b : Bindings,
      (∀ name ∈ a.keys ++ b.keys, q.params.declares name = true) →
      rebind rs i (a.merge b) = (rebind rs i a).merge (rebind rs i b) := by
  intro i q hq a b hown
  obtain ⟨r, hr, hshare⟩ := h.exists_renaming hq
  rw [rebind_of_getElem? hr, rebind_of_getElem? hr, rebind_of_getElem? hr]
  refine Bindings.renamed_merge fun x hx y hy hxy => ?_
  exact hrun.applyText_injective hshare (hown x hx) (hown y hy) hxy

end TakePart

/-! ## What becomes of every value -/

/-- What becomes of the values that are bound for a part, whatever their names. A value is
lost for each name that is renamed to the name of another value, and no other; all others are
found under the name that they had or got. Names that the part declares never clash. -/
theorem carried_bindings {cases : List (Parametrized Expr × Parametrized Statement)}
    {fallback : Parametrized Statement} {supply left : NameSupply} {c : Conditional}
    {events : List Event}
    (h : select cases (some fallback) supply = (⟨.ok c, events⟩, left)) (values : Bindings) :
    (∀ i q, (cases.map Prod.fst)[i]? = some q → ∃ r, c.conditionRenamings[i]? = some r ∧
      Bindings.Carried r values (c.conditionBindings i values) ∧
      ((∀ name ∈ values.keys, q.params.declares name = true) → values.clashes r = [])) ∧
    ∀ i q, (cases.map Prod.snd ++ [fallback])[i]? = some q → ∃ r, c.armRenamings[i]? = some r ∧
      Bindings.Carried r values (c.armBindings i values) ∧
      ((∀ name ∈ values.keys, q.params.declares name = true) → values.clashes r = []) := by
  obtain ⟨m, hrun, -, hconditions, harms⟩ := parts_of_select h
  exact ⟨hconditions.carried hrun values, harms.carried hrun values⟩

namespace Sample

/-- A value for the only name of the arm, and a stray one under the name that the merge gives
to it. -/
def strayValues : Bindings := ⟨[("x", .int 1), ("x0", .int 2)], by decide⟩

end Sample

/-- A stray value under the new name is lost to the renamed one. -/
theorem carried_sample : ∃ c events left,
    select [(Sample.condition, Sample.arm)] (some Sample.fallback) (.ofStem Sample.x) =
      (⟨.ok c, events⟩, left) ∧
    ∃ r, c.armRenamings[0]? = some r ∧ Sample.strayValues.clashes r = ["x"] ∧
      (c.armBindings 0 Sample.strayValues).size + 1 = 2 := by
  have hselect : ∃ c events left,
      select [(Sample.condition, Sample.arm)] (some Sample.fallback) (.ofStem Sample.x) =
        (⟨.ok c, events⟩, left) ∧
      ∀ r, c.armRenamings[0]? = some r → Sample.strayValues.clashes r = ["x"] := by
    refine ⟨_, _, _, rfl, ?_⟩
    rintro r ⟨⟩
    rfl
  obtain ⟨c, events, left, hselect, hclashes⟩ := hselect
  obtain ⟨-, harms⟩ := carried_bindings hselect Sample.strayValues
  obtain ⟨r, hr, hcarried, -⟩ := harms 0 Sample.arm rfl
  have hsize := hcarried.size
  rw [hclashes r hr] at hsize
  exact ⟨c, events, left, hselect, r, hr, hclashes r hr, hsize⟩

/-- The value of the arm's own name is lost, and the stray one is bound in its place. -/
theorem value_lost : ∃ c events left t b,
    select [(Sample.condition, Sample.arm)] (some Sample.fallback) (.ofStem Sample.x) =
      (⟨.ok c, events⟩, left) ∧
    Sample.strayValues.size = 2 ∧ (c.armBindings 0 Sample.strayValues).size = 1 ∧
    (c.compile left).1.result = .ok t ∧
    (t.bind ((c.conditionBindings 0 ⟨[("x", .bool true)], by decide⟩).merge
      ((c.armBindings 0 Sample.strayValues).merge
        (c.armBindings 1 ⟨[("x", .int 3), ("x0", .int 4)], by decide⟩)))).result = .ok b ∧
    b.values.get? Sample.x0 = some (.int 2) :=
  ⟨_, _, _, _, _, rfl, rfl, rfl, rfl, rfl, rfl⟩

/-! ## Laws -/

/-- Merging bindings is associative, with the empty ones as its identity, and a list of values
is collected one by one: the last value of a name counts, and its first place. Bringing
bindings to the merged names of a part twice is doing so once, and it can be done before or
after merging if all names are the part's own. Equality is equality of the entries in order. -/
theorem bindings_laws :
    (∀ a b c : Bindings, (a.merge b).merge c = a.merge (b.merge c)) ∧
    (∀ a : Bindings, Bindings.merge Table.empty a = a ∧ a.merge Table.empty = a) ∧
    (∀ pairs : List (String × Value),
      (Table.ofList pairs : Bindings) =
        pairs.foldl (fun b pair => b.insert pair.1 pair.2) Table.empty ∧
      (Table.ofList pairs : Bindings).keys = (pairs.map Prod.fst).eraseDups ∧
      ∀ name, (Table.ofList pairs : Bindings).get? name = pairs.reverse.lookup name) ∧
    ∀ (cases : List (Parametrized Expr × Parametrized Statement))
      (fallback : Parametrized Statement) (supply left : NameSupply) (c : Conditional)
      (events : List Event),
      select cases (some fallback) supply = (⟨.ok c, events⟩, left) →
      (∀ i values, c.conditionBindings i (c.conditionBindings i values) =
        c.conditionBindings i values) ∧
      (∀ i values, c.armBindings i (c.armBindings i values) = c.armBindings i values) ∧
      (∀ i q, (cases.map Prod.fst)[i]? = some q → ∀ a b : Bindings,
        (∀ name ∈ a.keys ++ b.keys, q.params.declares name = true) →
        c.conditionBindings i (a.merge b) =
          (c.conditionBindings i a).merge (c.conditionBindings i b)) ∧
      ∀ i q, (cases.map Prod.snd ++ [fallback])[i]? = some q → ∀ a b : Bindings,
        (∀ name ∈ a.keys ++ b.keys, q.params.declares name = true) →
        c.armBindings i (a.merge b) = (c.armBindings i a).merge (c.armBindings i b) := by
  refine ⟨Bindings.merge_assoc, fun a => ⟨a.empty_merge, a.merge_empty⟩, fun pairs =>
    ⟨Table.insertAll_eq_foldl Table.empty pairs, Table.keys_ofList pairs,
      Table.get?_ofList pairs⟩, ?_⟩
  intro cases fallback supply left c events h
  obtain ⟨m, hrun, -, hconditions, harms⟩ := parts_of_select h
  exact ⟨hconditions.rebind_rebind hrun, harms.rebind_rebind hrun, hconditions.rebind_merge hrun,
    harms.rebind_merge hrun⟩

/-- Values for the two names of the fallback can be merged before or after they are brought to
the merged names, and the stray value that one arm loses is lost but once. -/
theorem bindings_laws_sample : ∃ c events left,
    select [(Sample.condition, Sample.arm)] (some Sample.fallback) (.ofStem Sample.x) =
      (⟨.ok c, events⟩, left) ∧
    c.armBindings 0 (c.armBindings 0 Sample.strayValues) = c.armBindings 0 Sample.strayValues ∧
    ∀ first second : Value,
      c.armBindings 1
          (Bindings.merge (Table.ofList [("x", first)]) (Table.ofList [("x0", second)])) =
        (c.armBindings 1 (Table.ofList [("x", first)])).merge
          (c.armBindings 1 (Table.ofList [("x0", second)])) := by
  obtain ⟨-, -, -, hlaws⟩ := bindings_laws
  obtain ⟨-, hagain, -, hmerge⟩ := hlaws [(Sample.condition, Sample.arm)] Sample.fallback
    (.ofStem Sample.x) _ _ _ rfl
  refine ⟨_, _, _, rfl, hagain 0 Sample.strayValues, fun first second => ?_⟩
  refine hmerge 1 Sample.fallback rfl _ _ fun name hname => ?_
  have hdeclared : ∀ name ∈ ["x", "x0"], Sample.fallback.params.declares name = true := by decide
  exact hdeclared name hname

end Conditional

end GraphQuery
