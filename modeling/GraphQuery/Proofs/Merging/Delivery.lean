import GraphQuery.Proofs.Merging.Binding
import GraphQuery.Proofs.Merging.Partition
import Mathlib.Data.List.Forall2

/-!
# Values reach their placeholders

Whoever runs a merged conditional has bindings for each part under the part's own
names. They are rewritten part by part, merged in any order and bound to the compiled
template. Since a merge divides its names among the parts, no two of the rewritten
bindings share a name, and each value arrives under the merged name of the placeholder
that it was given for. In the merged statement that name stands where the placeholder
stood in its part, so every occurrence finds the value that its own part was given.

Main statement: `Conditional.bind_merged`.
-/

set_option autoImplicit false

namespace GraphQuery

/-- What a part's own bindings give to its names are the values of the merged names. -/
def Arrives (params : Declarations) (renames : Renaming) (own : Bindings)
    (merged : Table Identifier Value) : Prop :=
  ∀ name ∈ params.keys, ∃ value, own.get? name.text = some value ∧
    merged.get? (renames.apply name) = some value

/-- A part gets its own values under the names that a merge gives to it. -/
structure Delivered {β : Type} [Renameable β] (q : Parametrized β) (r : Renaming)
    (own : Bindings) (merged : Table Identifier Value) : Prop where
  names : Arrives q.params r own merged
  /-- The placeholders stand where they stood, each under its merged name. -/
  placeholders : Renameable.placeholders (r.rename q.body) =
    (Renameable.placeholders q.body).map r.applyTo
  /-- Each of them finds the value that the part's own bindings give to it. -/
  values : ∀ p ∈ Renameable.placeholders q.body, ∃ value, own.get? p.name.text = some value ∧
    merged.get? (r.applyTo p).name = some value

namespace Share

/-- The bindings of a part under its merged names. -/
def rebound (s : Share) (own : Bindings) : Bindings := own.renamed s.renames

variable {s : Share} {own : Bindings}

/-- The texts of a part's own names become those of its targets, no two of which are the
same. -/
theorem nodup_applyText (hnodup : (Entries.keys s.targets).Nodup)
    (hown : own.Supplies s.params) : (own.keys.map s.renames.applyText).Nodup ∧
      (own.keys.map s.renames.applyText).Perm ((Entries.keys s.targets).map Identifier.text) := by
  have hperm := (Bindings.supplies_iff_perm.1 hown).map s.renames.applyText
  have htexts : (s.params.keys.map Identifier.text).map s.renames.applyText =
      (Entries.keys s.targets).map Identifier.text := by
    rw [s.keys_targets, List.map_map, List.map_map]
    exact List.map_congr_left fun name _ => s.renames.applyText_text name
  rw [htexts] at hperm
  exact ⟨hperm.nodup_iff.2 (Identifier.nodup_texts hnodup), hperm⟩

/-- The values of a part arrive under its merged names, in their order. -/
theorem entries_rebound (hnodup : (Entries.keys s.targets).Nodup)
    (hown : own.Supplies s.params) :
    (s.rebound own).entries = own.entries.map fun (name, value) =>
      (s.renames.applyText name, value) :=
  Bindings.entries_renamed (nodup_applyText hnodup hown).1

/-- They are all that arrives for the part. -/
theorem perm_keys_rebound (hnodup : (Entries.keys s.targets).Nodup)
    (hown : own.Supplies s.params) :
    (s.rebound own).keys.Perm ((Entries.keys s.targets).map Identifier.text) := by
  have hkeys : (s.rebound own).keys = own.keys.map s.renames.applyText := by
    rw [Table.keys, entries_rebound hnodup hown, Entries.keys, Table.keys, Entries.keys,
      List.map_map, List.map_map]
    rfl
  rw [hkeys]
  exact (nodup_applyText hnodup hown).2

/-- The value of a name is an entry under its merged name. -/
theorem mem_rebound (hnodup : (Entries.keys s.targets).Nodup) (hown : own.Supplies s.params)
    {name : Identifier} {value : Value} (hvalue : own.get? name.text = some value) :
    ((s.renames.apply name).text, value) ∈ (s.rebound own).entries := by
  rw [entries_rebound hnodup hown, ← Renaming.applyText_text]
  exact List.mem_map.2 ⟨(name.text, value), Table.get?_eq_some_iff.1 hvalue, rfl⟩

end Share

/-! ## Parts in any order -/

section Parts

variable {parts : List (Share × Bindings)} {order : List Bindings}

/-- Names of the parts after the merge. -/
def targetKeys (parts : List (Share × Bindings)) : List Identifier :=
  parts.flatMap fun part => Entries.keys part.1.targets

/-- Over all parts, a value arrives for each merged name. -/
theorem perm_keys_parts (hdistinct : (targetKeys parts).Nodup)
    (hown : ∀ part ∈ parts, part.2.Supplies part.1.params) :
    ((parts.map fun part => part.1.rebound part.2).flatMap Table.keys).Perm
      ((targetKeys parts).map Identifier.text) := by
  induction parts with
  | nil => exact List.Perm.refl _
  | cons part rest ih =>
      rw [targetKeys, List.flatMap_cons] at hdistinct
      obtain ⟨hfirst, hrest⟩ := List.forall_mem_cons.1 hown
      have hsplit := List.nodup_append.1 hdistinct
      have hperm := Share.perm_keys_rebound hsplit.1 hfirst
      rw [List.map_cons, List.flatMap_cons, targetKeys, List.flatMap_cons, List.map_append]
      exact hperm.append (ih hsplit.2.1 hrest)

/-- Rewritten bindings merge without a loss, whatever the order. -/
theorem entries_merged (hdistinct : (targetKeys parts).Nodup)
    (hown : ∀ part ∈ parts, part.2.Supplies part.1.params)
    (horder : order.Perm (parts.map fun part => part.1.rebound part.2)) :
    (order.foldl Bindings.merge Table.empty).entries = order.flatMap Table.entries ∧
    (order.foldl Bindings.merge Table.empty).keys.Perm
      ((targetKeys parts).map Identifier.text) := by
  -- reordering the parts reorders the keys, and keys without repetitions stay so
  have hkeys : Entries.keys (order.flatMap Table.entries) = order.flatMap Table.keys :=
    List.map_flatMap
  have hperm : (Entries.keys (order.flatMap Table.entries)).Perm
      ((targetKeys parts).map Identifier.text) := by
    rw [hkeys]
    exact (horder.flatMap_right Table.keys).trans (perm_keys_parts hdistinct hown)
  have hnodup : (Entries.keys (order.flatMap Table.entries)).Nodup :=
    hperm.nodup_iff.2 (Identifier.nodup_texts hdistinct)
  have hentries := Bindings.entries_foldl_merge (b := Table.empty) hnodup
  refine ⟨hentries, ?_⟩
  rw [Table.keys, hentries]
  exact hperm

/-- The value of a part's name is found under its merged name in the merged bindings. -/
theorem get?_merged (hdistinct : (targetKeys parts).Nodup)
    (hown : ∀ part ∈ parts, part.2.Supplies part.1.params)
    (horder : order.Perm (parts.map fun part => part.1.rebound part.2))
    {s : Share} {own : Bindings} (hpart : (s, own) ∈ parts) {name : Identifier}
    (hname : name ∈ s.params.keys) :
    ∃ value, own.get? name.text = some value ∧
      (order.foldl Bindings.merge Table.empty).get? (s.renames.apply name).text = some value := by
  have hsupplies := hown _ hpart
  have hnodup : (Entries.keys s.targets).Nodup := (List.nodup_flatMap.1 hdistinct).1 _ hpart
  obtain ⟨value, hvalue⟩ := Table.mem_keys_iff.1 (Bindings.mem_keys_of_supplies hsupplies hname)
  have hrebound : s.rebound own ∈ order :=
    horder.mem_iff.2 (List.mem_map.2 ⟨(s, own), hpart, rfl⟩)
  refine ⟨value, hvalue, Table.get?_eq_some_iff.2 ?_⟩
  rw [(entries_merged hdistinct hown horder).1]
  exact List.mem_flatMap.2 ⟨_, hrebound, Share.mem_rebound hnodup hsupplies hvalue⟩

/-- Merged bindings supply the merged declarations, and a template that takes these
gives each part's values to the part's own placeholders. -/
theorem bind_parts (hown : ∀ part ∈ parts, part.2.Supplies part.1.params)
    (horder : order.Perm (parts.map fun part => part.1.rebound part.2)) {t : Template}
    (hparams : t.params.keys = targetKeys parts) :
    (order.foldl Bindings.merge Table.empty).Supplies t.params ∧
    ∃ b, (t.bind (order.foldl Bindings.merge Table.empty)).result = .ok b ∧ b.text = t.text ∧
      b.values.keys = t.params.keys ∧
      ∀ part ∈ parts, Arrives part.1.params part.1.renames part.2 b.values := by
  have hdistinct : (targetKeys parts).Nodup := hparams ▸ t.params.nodup
  have hperm := (entries_merged hdistinct hown horder).2
  have hsupplies : (order.foldl Bindings.merge Table.empty).Supplies t.params := by
    rw [Bindings.supplies_iff_perm, hparams]
    exact hperm
  obtain ⟨b, hb, htext, hkeys, hvalues⟩ := Template.bind_of_supplies hsupplies
  refine ⟨hsupplies, b, hb, htext, hkeys, fun part hpart name hname => ?_⟩
  obtain ⟨value, hvalue, hmerged⟩ := get?_merged hdistinct hown horder hpart hname
  have htarget : part.1.renames.apply name ∈ t.params.keys := by
    rw [hparams]
    refine List.mem_flatMap.2 ⟨part, hpart, ?_⟩
    rw [part.1.keys_targets]
    exact List.mem_map_of_mem hname
  exact ⟨value, hvalue, (hvalues _ htarget).trans hmerged⟩

end Parts

/-! ## Conditions and arms -/

/-- Bindings that give a value to each name that a part declares and to no other. -/
def SuppliesPart {β : Type} (q : Parametrized β) (own : Bindings) : Prop :=
  own.Supplies q.params

section Group

variable {β : Type} [Renameable β] {qs : List (Parametrized β)} {rs : List Renaming}
  {values : List Bindings}

/-- Parts of one sort with their own bindings. -/
def groupParts (qs : List (Parametrized β)) (rs : List Renaming) (values : List Bindings) :
    List (Share × Bindings) :=
  (List.zipWith Share.of qs rs).zip values

theorem map_rebound_groupParts (hcount : rs.length = qs.length)
    (hvalues : qs.length = values.length) :
    (groupParts qs rs values).map (fun part => part.1.rebound part.2) =
      values.mapIdx (Conditional.rebind rs) := by
  refine List.ext_getElem (by simp [groupParts, hcount, hvalues]) fun i hi _ => ?_
  have hi : i < rs.length := by
    simp [groupParts] at hi
    omega
  simp [groupParts, Conditional.rebind, Share.rebound, Share.of, hi]

/-- The names of a group are the targets of its shares. -/
theorem targetKeys_groupParts (hcount : rs.length = qs.length)
    (hvalues : qs.length = values.length) :
    targetKeys (groupParts qs rs values) =
      Entries.keys ((List.zipWith Share.of qs rs).flatMap Share.targets) := by
  have hshares : (groupParts qs rs values).map Prod.fst = List.zipWith Share.of qs rs :=
    List.map_fst_zip (by simp [hcount, hvalues])
  rw [← hshares, targetKeys, List.flatMap_map, Entries.keys, List.map_flatMap]
  rfl

/-- Each part of a group comes with values that it declares. -/
theorem supplies_of_mem_groupParts
    (hown : List.Forall₂ SuppliesPart qs values) :
    ∀ part ∈ groupParts qs rs values, part.2.Supplies part.1.params := by
  induction hown generalizing rs with
  | nil => intro part hpart; cases hpart
  | cons hfirst _ ih =>
      cases rs with
      | nil => intro part hpart; cases hpart
      | cons r rest => exact List.forall_mem_cons.2 ⟨hfirst, ih⟩

/-- The part, the renaming and the values with one number stand together in the group. -/
theorem mem_groupParts {i : Nat} {q : Parametrized β} {r : Renaming} {own : Bindings}
    (hq : qs[i]? = some q) (hr : rs[i]? = some r) (hown : values[i]? = some own) :
    (Share.of q r, own) ∈ groupParts qs rs values := by
  have hshare : (List.zipWith Share.of qs rs)[i]? = some (Share.of q r) := by
    rw [List.getElem?_zipWith, hq, hr]
  exact List.mem_of_getElem? (i := i) (List.getElem?_zip_eq_some.2 ⟨hshare, hown⟩)

end Group

namespace Conditional

/-- A template declares what the merged statement does. -/
theorem params_of_compile {c : Conditional} {names : NameSupply} {t : Template}
    (h : (c.compile names).1.result = .ok t) : t.params = c.query.params := by
  unfold compile Parametrized.compile at h
  dsimp only at h
  split at h
  · cases h
  · cases h
    rfl

/-- Where the names of all parts arrive, so do the values of all their placeholders. -/
theorem TakePart.delivered {β : Type} [Renameable β] [LawfulRenameable β] {shares : List Share}
    {qs : List (Parametrized β)} {rs : List Renaming} {values : List Bindings}
    {merged : Table Identifier Value} (h : TakePart shares qs rs)
    (hdeclared : ∀ s ∈ shares, ∀ p ∈ s.placeholders, p.name ∈ s.params.keys)
    (harrives : ∀ part ∈ groupParts qs rs values,
      Arrives part.1.params part.1.renames part.2 merged) :
    ∀ (i : Nat) (q : Parametrized β) (own : Bindings), qs[i]? = some q → values[i]? = some own →
      ∃ r, rs[i]? = some r ∧ Delivered q r own merged := by
  intro i q own hq hown
  obtain ⟨r, hr, hshare⟩ := h.exists_renaming hq
  have hnames : Arrives q.params r own merged := harrives _ (mem_groupParts hq hr hown)
  exact ⟨r, hr, hnames, LawfulRenameable.placeholders_mapPlaceholders r.applyTo q.body,
    fun p hp => hnames p.name (hdeclared _ hshare p hp)⟩

/-- Every value reaches the placeholder that it was meant for. The bindings of the parts,
rewritten and merged in any order, supply the parameters of the compiled template, and binding
them keeps the order of declaration. The merged statement is one conditional of the renamed
parts, and its placeholders are those of the parts, in order and under their merged names. There
each occurrence finds the value that its own part was given for it. -/
theorem bind_merged {cases : List (Parametrized Expr × Parametrized Statement)}
    {fallback : Parametrized Statement} {supply left : NameSupply} {c : Conditional}
    {events : List Event}
    (h : select cases (some fallback) supply = (⟨.ok c, events⟩, left))
    {names : NameSupply} {t : Template} (hcompile : (c.compile names).1.result = .ok t)
    {conditionValues armValues order : List Bindings}
    (hconditions : List.Forall₂ SuppliesPart (cases.map Prod.fst) conditionValues)
    (harms : List.Forall₂ SuppliesPart (cases.map Prod.snd ++ [fallback]) armValues)
    (horder : order.Perm (conditionValues.mapIdx c.conditionBindings ++
      armValues.mapIdx c.armBindings)) :
    (order.foldl Bindings.merge Table.empty).Supplies t.params ∧
    ∃ b, (t.bind (order.foldl Bindings.merge Table.empty)).result = .ok b ∧ b.text = t.text ∧
      b.values.keys = c.query.params.keys ∧
      b.values.keys = Entries.keys ((c.shares cases fallback).flatMap Share.targets) ∧
      (∃ choice : Choice, c.query.body = ⟨⟨[.choice choice]⟩, [], .distinct⟩ ∧
        choice.conditions = List.zipWith (fun q r => r.rename q.body) (cases.map Prod.fst)
          c.conditionRenamings ∧
        choice.arms = List.zipWith (fun q r => r.rename q.body) (cases.map Prod.snd ++ [fallback])
          c.armRenamings) ∧
      c.query.body.placeholders =
        (c.shares cases fallback).flatMap Share.renamedPlaceholders ∧
      (∀ (i : Nat) (q : Parametrized Expr) (own : Bindings),
        (cases.map Prod.fst)[i]? = some q → conditionValues[i]? = some own →
        ∃ r, c.conditionRenamings[i]? = some r ∧ Delivered q r own b.values) ∧
      ∀ (i : Nat) (q : Parametrized Statement) (own : Bindings),
        (cases.map Prod.snd ++ [fallback])[i]? = some q → armValues[i]? = some own →
        ∃ r, c.armRenamings[i]? = some r ∧ Delivered q r own b.values := by
  obtain ⟨m, hrun, hclaimed, htake, htake'⟩ := parts_of_select h
  have hparams := params_of_compile hcompile
  let parts := groupParts (cases.map Prod.fst) c.conditionRenamings conditionValues ++
    groupParts (cases.map Prod.snd ++ [fallback]) c.armRenamings armValues
  have hown : ∀ part ∈ parts, part.2.Supplies part.1.params :=
    List.forall_mem_append.2 ⟨supplies_of_mem_groupParts hconditions,
      supplies_of_mem_groupParts harms⟩
  have hrebound : parts.map (fun part => part.1.rebound part.2) =
      conditionValues.mapIdx c.conditionBindings ++ armValues.mapIdx c.armBindings := by
    rw [List.map_append, map_rebound_groupParts htake.count hconditions.length_eq,
      map_rebound_groupParts htake'.count harms.length_eq]
    rfl
  have htargets : targetKeys parts =
      Entries.keys ((c.shares cases fallback).flatMap Share.targets) := by
    rw [targetKeys, List.flatMap_append, ← targetKeys, ← targetKeys,
      targetKeys_groupParts htake.count hconditions.length_eq,
      targetKeys_groupParts htake'.count harms.length_eq, shares, List.flatMap_append]
    exact List.map_append.symm
  have hkeys : t.params.keys = targetKeys parts := by
    rw [hparams, htargets, ← hclaimed, Table.keys, hrun.entries]
    rfl
  obtain ⟨hsupplies, b, hb, htext, hvalues, harrives⟩ :=
    bind_parts hown (hrebound ▸ horder) hkeys
  obtain ⟨hfirst, hsecond⟩ := List.forall_mem_append.1 harrives
  have hdeclared : ∀ s ∈ c.shares cases fallback, ∀ p ∈ s.placeholders, p.name ∈ s.params.keys :=
    fun s hs p hp => hrun.declared hs hp
  refine ⟨hsupplies, b, hb, htext, ?_, ?_, body_of_select h, placeholders_of_select h,
    htake.delivered hdeclared hfirst, htake'.delivered hdeclared hsecond⟩
  · rw [hvalues, hparams]
  · rw [hvalues, hkeys, htargets]

namespace Sample

/-- Values for the condition and for the two arms, under their own names. -/
def conditionValues : List Bindings := [⟨[("x", .bool true)], by decide⟩]

def armValues : List Bindings :=
  [⟨[("x", .int 1)], by decide⟩, ⟨[("x", .int 3), ("x0", .int 2)], by decide⟩]

def x1 : Identifier := ⟨"x1", by decide⟩

def x2 : Identifier := ⟨"x2", by decide⟩

end Sample

/-- The merge of the sample compiles. The condition keeps its `x`, that of the first arm becomes
`x0`, and the fallback has `x1` and `x2` for its `x0` and `x`. -/
theorem compile_sample : ∃ c events left t,
    select [(Sample.condition, Sample.arm)] (some Sample.fallback) (.ofStem Sample.x) =
      (⟨.ok c, events⟩, left) ∧
    (c.compile left).1.result = .ok t ∧
    c.query.body.placeholders.map Placeholder.name = [Sample.x, Sample.x0, Sample.x1] ∧
    (∀ r, c.conditionRenamings[0]? = some r → r.apply Sample.x = Sample.x) ∧
    (∀ r, c.armRenamings[0]? = some r → r.apply Sample.x = Sample.x0) ∧
    ∀ r, c.armRenamings[1]? = some r →
      r.apply Sample.x0 = Sample.x1 ∧ r.apply Sample.x = Sample.x2 := by
  refine ⟨_, _, _, _, rfl, rfl, rfl, ?_, ?_, ?_⟩
  · rintro r ⟨⟩
    rfl
  · rintro r ⟨⟩
    rfl
  · rintro r ⟨⟩
    exact ⟨rfl, rfl⟩

/-- Three values for `x`, merged last part first. The condition, the first arm and the fallback
find their own at their placeholders, and the `x` that the fallback does not use has its own. -/
theorem bind_merged_sample : ∃ c events left t,
    select [(Sample.condition, Sample.arm)] (some Sample.fallback) (.ofStem Sample.x) =
      (⟨.ok c, events⟩, left) ∧
    (c.compile left).1.result = .ok t ∧
    c.query.body.placeholders.map Placeholder.name = [Sample.x, Sample.x0, Sample.x1] ∧
    ∃ b, (t.bind ((Sample.conditionValues.mapIdx c.conditionBindings ++
        Sample.armValues.mapIdx c.armBindings).reverse.foldl Bindings.merge
          Table.empty)).result = .ok b ∧
      b.values.get? Sample.x = some (.bool true) ∧ b.values.get? Sample.x0 = some (.int 1) ∧
      b.values.get? Sample.x1 = some (.int 2) ∧ b.values.get? Sample.x2 = some (.int 3) := by
  have hcondition : SuppliesPart Sample.condition ⟨[("x", .bool true)], by decide⟩ :=
    Bindings.supplies_iff_perm.2 (.refl ["x"])
  have harm : SuppliesPart Sample.arm ⟨[("x", .int 1)], by decide⟩ :=
    Bindings.supplies_iff_perm.2 (.refl ["x"])
  have hfallback : SuppliesPart Sample.fallback ⟨[("x", .int 3), ("x0", .int 2)], by decide⟩ :=
    Bindings.supplies_iff_perm.2 (.swap "x0" "x" [])
  obtain ⟨c, events, left, t, hselect, hcompile, hbody, hkept, hfirst, hsecond⟩ := compile_sample
  obtain ⟨-, b, hb, -, -, -, -, -, hconditions, harms⟩ := bind_merged hselect hcompile
    (.cons hcondition .nil) (.cons harm (.cons hfallback .nil)) (List.reverse_perm _)
  refine ⟨c, events, left, t, hselect, hcompile, hbody, b, hb, ?_, ?_, ?_, ?_⟩
  · obtain ⟨r, hr, hdelivered⟩ := hconditions 0 Sample.condition _ rfl rfl
    obtain ⟨value, ⟨⟩, hvalue⟩ := hdelivered.values ⟨Sample.x, .boolean⟩ List.mem_cons_self
    rwa [Renaming.applyTo, hkept r hr] at hvalue
  · obtain ⟨r, hr, hdelivered⟩ := harms 0 Sample.arm _ rfl rfl
    obtain ⟨value, ⟨⟩, hvalue⟩ := hdelivered.values ⟨Sample.x, .any⟩ List.mem_cons_self
    rwa [Renaming.applyTo, hfirst r hr] at hvalue
  · obtain ⟨r, hr, hdelivered⟩ := harms 1 Sample.fallback _ rfl rfl
    obtain ⟨value, ⟨⟩, hvalue⟩ := hdelivered.values ⟨Sample.x0, .any⟩ List.mem_cons_self
    rwa [Renaming.applyTo, (hsecond r hr).1] at hvalue
  · obtain ⟨r, hr, hdelivered⟩ := harms 1 Sample.fallback _ rfl rfl
    obtain ⟨value, ⟨⟩, hvalue⟩ :=
      hdelivered.names Sample.x (List.mem_cons_of_mem _ List.mem_cons_self)
    rwa [(hsecond r hr).2] at hvalue

end Conditional

end GraphQuery
