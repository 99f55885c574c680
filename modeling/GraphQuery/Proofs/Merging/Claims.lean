import GraphQuery.Conditional
import GraphQuery.Proofs.Merging.Supply
import GraphQuery.Proofs.Merging.Tables
import Mathlib.Data.List.Nodup

/-!
# Claiming names

A merge absorbs parts one after the other, and each part claims its names in order.
`Claims.Step` says all that one part can do: a name that was not claimed before the
part came is kept, every other name is replaced by a name from the supply, the
renaming holds the replaced names only, and the claimed names grow by the targets of
the part. `Claims.Run` is the succession of such steps.

Main statements: `Claims.step_of_absorb` and `Claims.run_of_absorbAll`.
-/

set_option autoImplicit false

namespace GraphQuery

/-- A part of a merge: its own parameters, its placeholders before the merge, and the
renaming that it underwent. -/
structure Share where
  params : Declarations
  placeholders : List Placeholder
  renames : Renaming

namespace Share

/-- The share of a parametrized part. -/
def of {β : Type} [Renameable β] (q : Parametrized β) (r : Renaming) : Share :=
  ⟨q.params, Renameable.placeholders q.body, r⟩

/-- Merged names of the parameters in order, at their declared kinds. -/
def targets (s : Share) : List (Identifier × Kind) :=
  s.params.entries.map fun (name, kind) => (s.renames.apply name, kind)

/-- The targets of a share are its names, renamed. -/
theorem keys_targets (s : Share) :
    Entries.keys s.targets = s.params.keys.map s.renames.apply := by
  simp [Entries.keys, targets, Table.keys, Function.comp_def]

end Share

/-- How a part comes through a merge in which the names `earlier` are claimed before
it and the supply hands out the numbers from `first` up to `last` for it. -/
structure Share.Settled (earlier : List Identifier) (stem : Identifier) (first last : Nat)
    (s : Share) : Prop where
  declared : ∀ p ∈ s.placeholders, p.name ∈ s.params.keys
  /-- The renaming holds the names that are claimed already, and no others. -/
  renamed : s.renames.keys = (s.params.keys.filter (· ∈ earlier)).map Identifier.text
  kept : ∀ name ∈ s.params.keys, name ∉ earlier → s.renames.apply name = name
  replaced : ∀ name ∈ s.params.keys, name ∈ earlier →
    ∃ j, first ≤ j ∧ j < last ∧ s.renames.apply name = stem.numbered j

/-- A share that is settled within some numbers is settled within more. -/
theorem Share.Settled.widen {earlier : List Identifier} {stem : Identifier}
    {first last first' last' : Nat} {s : Share} (h : s.Settled earlier stem first last)
    (hfirst : first' ≤ first) (hlast : last ≤ last') : s.Settled earlier stem first' last' where
  declared := h.declared
  renamed := h.renamed
  kept := h.kept
  replaced name hname hclaimed := by
    obtain ⟨j, hj, hlt, htarget⟩ := h.replaced name hname hclaimed
    exact ⟨j, Nat.le_trans hfirst hj, Nat.lt_of_lt_of_le hlt hlast, htarget⟩

namespace Renaming

variable {r : Renaming} {name : Identifier}

/-- A name without an entry is not renamed. -/
theorem apply_of_not_mem (h : name.text ∉ r.keys) : r.apply name = name := by
  rw [apply, Table.get?_eq_none_iff.2 h]
  rfl

/-- A name with an entry is renamed to it. -/
theorem apply_of_get? {target : Identifier} (h : r.get? name.text = some target) :
    r.apply name = target := by
  rw [apply, h]
  rfl

end Renaming

namespace Claims

/-! ## One name -/

/-- A claimed name is replaced by a number of the supply that nobody uses; any other
name is kept. -/
theorem claim_cases (m : Claims) (own : Declarations) (name : Identifier) (kind : Kind)
    (renames : Renaming) :
    (name ∉ m.claimed.keys ∧
      m.claim own name kind renames = (⟨m.claimed.insert name kind, m.supply, m.events⟩, renames)) ∨
    (name ∈ m.claimed.keys ∧ ∃ j events, m.supply.issued ≤ j ∧
      m.supply.stem.numbered j ∉ m.claimed.keys ∧ m.supply.stem.numbered j ∉ own.keys ∧
      m.claim own name kind renames =
        (⟨m.claimed.insert (m.supply.stem.numbered j) kind, ⟨m.supply.stem, j + 1⟩, events⟩,
          renames.insert name.text (m.supply.stem.numbered j))) := by
  by_cases hname : name ∈ m.claimed.keys
  · -- the supply passes over the claimed names and over all names of the part itself
    obtain ⟨j, hj, hdrawn, hfree, -⟩ := m.supply.firstUnused_spec (m.claimed.keys ++ own.keys)
    rw [List.mem_append, not_or] at hfree
    refine .inr ⟨hname, j, m.events ++ [.renamed name (m.supply.stem.numbered j)], hj, hfree.1,
      hfree.2, ?_⟩
    rw [claim, if_pos (Table.contains_iff.2 hname), hdrawn]
  · refine .inl ⟨hname, ?_⟩
    rw [claim, if_neg (mt Table.contains_iff.1 hname)]

/-! ## The names of one part -/

/-- All that claiming names one after the other does, where `earlier` are those among
them that are claimed before. -/
structure ClaimedAll (earlier : List Identifier) (m m' : Claims) (renames r : Renaming)
    (es : List (Identifier × Kind)) : Prop where
  entries : m'.claimed.entries = m.claimed.entries ++ es.map fun e => (r.apply e.1, e.2)
  renamed : r.keys = renames.keys ++
    ((Entries.keys es).filter (· ∈ earlier)).map Identifier.text
  carried : ∀ key ∈ renames.keys, r.get? key = renames.get? key
  replaced : ∀ name ∈ Entries.keys es, name ∈ earlier → ∃ j, m.supply.issued ≤ j ∧
    j < m'.supply.issued ∧ r.apply name = m.supply.stem.numbered j
  stem : m'.supply.stem = m.supply.stem
  issued : m.supply.issued ≤ m'.supply.issued

theorem text_not_mem_map {names : List Identifier} {name : Identifier} (h : name ∉ names) :
    name.text ∉ names.map Identifier.text := by
  intro hmem
  obtain ⟨other, hother, htext⟩ := List.mem_map.1 hmem
  exact h (Identifier.ext_text htext ▸ hother)

namespace ClaimedAll

variable {earlier : List Identifier} {m m' : Claims} {renames r : Renaming} {name : Identifier}
  {kind : Kind} {rest : List (Identifier × Kind)}

theorem nil (earlier : List Identifier) (m : Claims) (renames : Renaming) :
    ClaimedAll earlier m m renames renames [] where
  entries := (List.append_nil _).symm
  renamed := (List.append_nil _).symm
  carried _ _ := rfl
  replaced _ hname := by cases hname
  stem := rfl
  issued := Nat.le_refl _

/-- A name is kept, and then further names are claimed. -/
theorem kept {events : List Event} (hfree : name ∉ m.claimed.keys) (hearlier : name ∉ earlier)
    (hnew : name.text ∉ renames.keys) (hname : name ∉ Entries.keys rest)
    (hrest : ClaimedAll earlier ⟨m.claimed.insert name kind, m.supply, events⟩ m' renames r rest) :
    ClaimedAll earlier m m' renames r ((name, kind) :: rest) where
  entries := by
    have happly : r.apply name = name := by
      refine Renaming.apply_of_not_mem ?_
      rw [hrest.renamed, List.mem_append, not_or]
      refine ⟨hnew, text_not_mem_map fun hmem => hname (List.mem_filter.1 hmem).1⟩
    rw [hrest.entries, Table.entries_insert hfree, List.append_assoc, List.map_cons, happly]
    rfl
  renamed := by
    have hkeys : Entries.keys ((name, kind) :: rest) = name :: Entries.keys rest := rfl
    rw [hrest.renamed, hkeys, List.filter_cons_of_neg (by simpa using hearlier)]
  carried := hrest.carried
  replaced other hother hclaimed := by
    rcases List.mem_cons.1 hother with rfl | hmem
    · exact absurd hclaimed hearlier
    · exact hrest.replaced other hmem hclaimed
  stem := hrest.stem
  issued := hrest.issued

/-- A name is replaced, and then further names are claimed. -/
theorem replace {events : List Event} {j : Nat} (hj : m.supply.issued ≤ j)
    (hfree : m.supply.stem.numbered j ∉ m.claimed.keys) (hearlier : name ∈ earlier)
    (hnew : name.text ∉ renames.keys)
    (hrest : ClaimedAll earlier
      ⟨m.claimed.insert (m.supply.stem.numbered j) kind, ⟨m.supply.stem, j + 1⟩, events⟩ m'
      (renames.insert name.text (m.supply.stem.numbered j)) r rest) :
    ClaimedAll earlier m m' renames r ((name, kind) :: rest) := by
  have hkeys : (renames.insert name.text (m.supply.stem.numbered j)).keys =
      renames.keys ++ [name.text] := by
    rw [Table.keys_insert, if_neg hnew]
  -- claiming the names behind this one leaves its entry in the renaming as it is
  have happly : r.apply name = m.supply.stem.numbered j := by
    refine Renaming.apply_of_get? ?_
    rw [hrest.carried _ (by rw [hkeys]; simp), Table.get?_insert, if_pos rfl]
  have hissued : j + 1 ≤ m'.supply.issued := hrest.issued
  constructor
  case entries =>
    rw [hrest.entries, Table.entries_insert hfree, List.append_assoc, List.map_cons, happly]
    rfl
  case renamed =>
    have hcons : Entries.keys ((name, kind) :: rest) = name :: Entries.keys rest := rfl
    rw [hrest.renamed, hkeys, hcons, List.filter_cons_of_pos (by simpa using hearlier),
      List.append_assoc]
    rfl
  case carried =>
    intro key hkey
    have hne : key ≠ name.text := fun h => hnew (h ▸ hkey)
    rw [hrest.carried key (by rw [hkeys]; exact List.mem_append_left _ hkey), Table.get?_insert,
      if_neg hne]
  case replaced =>
    intro other hother hclaimed
    rcases List.mem_cons.1 hother with rfl | hmem
    · exact ⟨j, hj, by omega, happly⟩
    · obtain ⟨i, hi, hlast, hother⟩ := hrest.replaced other hmem hclaimed
      have hi : j + 1 ≤ i := hi
      exact ⟨i, by omega, hlast, hother⟩
  case stem => exact hrest.stem
  case issued => omega

end ClaimedAll

/-- Claiming distinct names of a part. No name that the part keeps is drawn for
another one, so claiming one name never takes another one away. -/
theorem claimedAll (own : Declarations) (earlier : List Identifier)
    (es : List (Identifier × Kind)) (m : Claims) (renames : Renaming)
    (hnodup : (Entries.keys es).Nodup) (hown : ∀ name ∈ Entries.keys es, name ∈ own.keys)
    (hnew : ∀ name ∈ Entries.keys es, name.text ∉ renames.keys)
    (hearlier : ∀ name ∈ Entries.keys es, name ∈ m.claimed.keys ↔ name ∈ earlier) :
    ClaimedAll earlier m (m.claimAll own renames es).1 renames
      (m.claimAll own renames es).2 es := by
  -- for the names still to come, `earlier` tells the claimed ones at every step
  induction es generalizing m renames with
  | nil => exact .nil earlier m renames
  | cons e rest ih =>
      obtain ⟨name, kind⟩ := e
      obtain ⟨hname, hnodup⟩ : name ∉ Entries.keys rest ∧ (Entries.keys rest).Nodup :=
        List.nodup_cons.1 hnodup
      have hne : ∀ other ∈ Entries.keys rest, other ≠ name :=
        fun other hother h => hname (h ▸ hother)
      obtain ⟨hownName, hown⟩ := List.forall_mem_cons.1 hown
      obtain ⟨hnewName, hnew⟩ := List.forall_mem_cons.1 hnew
      obtain ⟨hearlierName, hearlier⟩ := List.forall_mem_cons.1 hearlier
      rcases m.claim_cases own name kind renames with
        ⟨hkept, hclaim⟩ | ⟨htaken, j, events, hj, hfree, hforeign, hclaim⟩
      · -- the claimed names grow by `name`, which is none of those to come
        rw [claimAll, hclaim]
        refine .kept hkept (mt hearlierName.2 hkept) hnewName hname
          (ih _ renames hnodup hown hnew fun other hother => ?_)
        rw [Table.keys_insert, if_neg hkept, List.mem_append, List.mem_singleton,
          or_iff_left (hne other hother)]
        exact hearlier other hother
      · -- the claimed names grow by the drawn name, which is no name of the part
        rw [claimAll, hclaim]
        refine .replace hj hfree (hearlierName.1 htaken) hnewName
          (ih _ _ hnodup hown (fun other hother => ?_) fun other hother => ?_)
        · have htext : other.text ≠ name.text :=
            fun h => hne other hother (Identifier.ext_text h)
          rw [Table.keys_insert, if_neg hnewName, List.mem_append, List.mem_singleton,
            or_iff_left htext]
          exact hnew other hother
        · have hdrawn : other ≠ m.supply.stem.numbered j :=
            fun h => hforeign (h ▸ hown other hother)
          rw [Table.keys_insert, if_neg hfree, List.mem_append, List.mem_singleton,
            or_iff_left hdrawn]
          exact hearlier other hother

/-! ## One part -/

/-- A part claims its names, between the claims `m` and `m'`. -/
structure Step (m : Claims) (s : Share) (m' : Claims) : Prop where
  entries : m'.claimed.entries = m.claimed.entries ++ s.targets
  settled : s.Settled m.claimed.keys m.supply.stem m.supply.issued m'.supply.issued
  stem : m'.supply.stem = m.supply.stem
  issued : m.supply.issued ≤ m'.supply.issued

/-- A part in which nothing is undeclared declares all its placeholders. -/
theorem declared_of_undeclared? {β : Type} [Renameable β] {q : Parametrized β}
    (h : q.undeclared? = none) : ∀ p ∈ Renameable.placeholders q.body, p.name ∈ q.params.keys := by
  intro p hp
  have hall := List.find?_eq_none.1 h p.name
    (List.mem_eraseDups.2 (List.mem_map_of_mem hp))
  exact Table.contains_iff.1 (by simpa using hall)

/-- Absorbing a part claims its names and renames its body. -/
theorem step_of_absorb {β : Type} [Renameable β] {m m' : Claims} {q : Parametrized β}
    {part : β × Renaming} (h : m.absorb q = (m', .ok part)) :
    part.1 = part.2.rename q.body ∧ m.Step (Share.of q part.2) m' := by
  unfold absorb at h
  split at h
  · simp at h
  · next hdeclared =>
      simp only [Prod.mk.injEq, Except.ok.injEq] at h
      obtain ⟨rfl, rfl⟩ := h
      -- a part begins with an empty renaming, and `earlier` are the names claimed so far
      have hclaimed := claimedAll q.params m.claimed.keys q.params.entries m Table.empty
        q.params.nodup (fun _ hname => hname) (fun _ _ hmem => by cases hmem) (fun _ _ => Iff.rfl)
      refine ⟨rfl, hclaimed.entries, ⟨?_, ?_, ?_, ?_⟩, hclaimed.stem, hclaimed.issued⟩
      · exact declared_of_undeclared? hdeclared
      · exact hclaimed.renamed
      · intro name hname hfree
        refine Renaming.apply_of_not_mem ?_
        show name.text ∉ (m.claimAll q.params Table.empty q.params.entries).2.keys
        rw [hclaimed.renamed]
        exact text_not_mem_map fun hmem => hfree (by simpa using (List.mem_filter.1 hmem).2)
      · exact hclaimed.replaced

/-! ## Part after part -/

/-- Parts claim their names one after the other. -/
inductive Run : Claims → List Share → Claims → Prop where
  | nil (m : Claims) : Run m [] m
  | cons {m m₁ m' : Claims} {s : Share} {rest : List Share} (step : m.Step s m₁)
      (run : Run m₁ rest m') : Run m (s :: rest) m'

namespace Run

variable {m m₁ m' : Claims} {shares more : List Share}

/-- Runs one after the other make a run, with the shares of both. -/
theorem append (h : Run m shares m₁) (hmore : Run m₁ more m') : Run m (shares ++ more) m' := by
  induction h with
  | nil => exact hmore
  | cons step _ ih => exact .cons step (ih hmore)

/-- A run takes no number back. -/
theorem issued (h : Run m shares m') : m.supply.issued ≤ m'.supply.issued := by
  induction h with
  | nil => exact Nat.le_refl _
  | cons step _ ih => exact Nat.le_trans step.issued ih

/-- The claimed names grow by the targets of the parts, in order. -/
theorem entries (h : Run m shares m') :
    m'.claimed.entries = m.claimed.entries ++ shares.flatMap Share.targets := by
  induction h with
  | nil => exact (List.append_nil _).symm
  | cons step _ ih => rw [ih, step.entries, List.append_assoc, List.flatMap_cons]

/-- Each part is settled against the targets of the parts before it. -/
theorem settled (h : Run m shares m') {before after : List Share} {s : Share}
    (hs : shares = before ++ s :: after) :
    s.Settled (m.claimed.keys ++ Entries.keys (before.flatMap Share.targets)) m.supply.stem
      m.supply.issued m'.supply.issued := by
  induction h generalizing before with
  | nil => simp at hs
  | @cons m m₁ m' part rest step run ih =>
      cases before with
      | nil =>
          -- the part claims its names now, and the numbers drawn later come on top
          obtain ⟨rfl, rfl⟩ := List.cons.inj hs
          rw [List.flatMap_nil, Entries.keys, List.map_nil, List.append_nil]
          exact step.settled.widen (Nat.le_refl _) run.issued
      | cons first before =>
          -- the part comes later, when the targets of `first` are claimed already
          obtain ⟨rfl, hrest⟩ := List.cons.inj hs
          have hsettled := (ih hrest).widen step.issued (Nat.le_refl _)
          have hkeys : _ = m.claimed.keys ++ Entries.keys part.targets :=
            (congrArg Entries.keys step.entries).trans List.map_append
          rw [Table.keys, hkeys, step.stem] at hsettled
          rw [List.flatMap_cons, Entries.keys, List.map_append, ← List.append_assoc]
          exact hsettled

/-- In a merge that starts from nothing, no target belongs to two names. -/
theorem distinct {supply : NameSupply} (h : Run ⟨Table.empty, supply, []⟩ shares m') :
    (Entries.keys (shares.flatMap Share.targets)).Nodup := by
  have hnodup := m'.claimed.nodup
  rw [h.entries] at hnodup
  exact hnodup

/-- A part that comes through a merge declares all the placeholders that it uses. -/
theorem declared (h : Run m shares m') {s : Share} (hs : s ∈ shares) {p : Placeholder}
    (hp : p ∈ s.placeholders) : p.name ∈ s.params.keys := by
  obtain ⟨before, after, hsplit⟩ := List.append_of_mem hs
  exact (h.settled hsplit).declared p hp

/-- The new name of a placeholder is a target of its own part. -/
theorem within (h : Run m shares m') {s : Share} (hs : s ∈ shares) {p : Placeholder}
    (hp : p ∈ s.placeholders) : s.renames.apply p.name ∈ Entries.keys s.targets := by
  rw [s.keys_targets]
  exact List.mem_map_of_mem (h.declared hs hp)

end Run

/-- Where all targets are distinct, each part sends its names to different targets. -/
theorem injective_of_distinct {shares : List Share}
    (h : (Entries.keys (shares.flatMap Share.targets)).Nodup) {s : Share} (hs : s ∈ shares)
    {a b : Identifier} (ha : a ∈ s.params.keys) (hb : b ∈ s.params.keys)
    (hab : s.renames.apply a = s.renames.apply b) : a = b := by
  rw [Entries.keys, List.map_flatMap] at h
  have hown := (List.nodup_flatMap.1 h).1 s hs
  rw [← Entries.keys, s.keys_targets] at hown
  exact List.inj_on_of_nodup_map hown ha hb hab

/-- Absorbing parts in order is a run over their shares. -/
theorem run_of_absorbAll {β : Type} [Renameable β] {qs : List (Parametrized β)} {m m' : Claims}
    {parts : List (β × Renaming)} (h : m.absorbAll qs = (m', .ok parts)) :
    parts.length = qs.length ∧
    parts.map Prod.fst = List.zipWith (fun q r => r.rename q.body) qs (parts.map Prod.snd) ∧
    Run m (List.zipWith Share.of qs (parts.map Prod.snd)) m' := by
  induction qs generalizing m parts with
  | nil =>
      cases h
      exact ⟨rfl, rfl, .nil _⟩
  | cons q rest ih =>
      rw [absorbAll] at h
      split at h
      · simp at h
      · next m₁ part habsorb =>
          split at h
          · simp at h
          · next m₂ others hothers =>
              simp only [Prod.mk.injEq, Except.ok.injEq] at h
              obtain ⟨rfl, rfl⟩ := h
              obtain ⟨hbody, hstep⟩ := step_of_absorb habsorb
              obtain ⟨hlength, hbodies, hrun⟩ := ih hothers
              refine ⟨congrArg (· + 1) hlength, ?_, .cons hstep hrun⟩
              rw [List.map_cons, List.map_cons, List.zipWith_cons_cons, hbody, hbodies]

/-- A part that is absorbed behind others is the last of all. -/
theorem absorbAll_concat {β : Type} [Renameable β] {qs : List (Parametrized β)}
    {q : Parametrized β} {m m₁ m' : Claims} {parts : List (β × Renaming)} {last : β × Renaming}
    (h : m.absorbAll qs = (m₁, .ok parts)) (hlast : m₁.absorb q = (m', .ok last)) :
    m.absorbAll (qs ++ [q]) = (m', .ok (parts ++ [last])) := by
  induction qs generalizing m parts with
  | nil =>
      cases h
      simp [absorbAll, hlast]
  | cons first rest ih =>
      rw [absorbAll] at h
      split at h
      · simp at h
      · next m₂ part habsorb =>
          split at h
          · simp at h
          · next m₃ others hothers =>
              simp only [Prod.mk.injEq, Except.ok.injEq] at h
              obtain ⟨rfl, rfl⟩ := h
              rw [List.cons_append, absorbAll, habsorb]
              simp only [ih hothers, List.cons_append]

end Claims

end GraphQuery
