import GraphQuery.Proofs.Merging.Compiling
import GraphQuery.Proofs.Naming.Searching

/-!
# Names drawn by a merge

A merge draws names for those of its parts that declare what they use, up to the first part
that does not, and it has drawn and reported all of them when it fails later on. Which names
it draws depends on the parameters of these parts only.

Main statements: `Claims.parts_grow`, the supply moves on by exactly the names that are drawn,
and every reported target is one of them; `Conditional.select_claims`, this is all that a
merge does to its supply and all that it reports, whatever it ends with.
-/

set_option autoImplicit false

namespace GraphQuery

namespace Event

/-- The new name that an event reports. -/
def target? : Event → Option Identifier
  | .renamed _ target => some target
  | _ => none

/-- The replacement that an event reports, as a renaming holds it. -/
def replacement? : Event → Option (String × Identifier)
  | .renamed source target => some (source.text, target)
  | _ => none

end Event

namespace Claims

/-! ## Draws, name by name -/

/-- The names that are drawn when a name is claimed. -/
def claimDraws (m : Claims) (own : Declarations) (name : Identifier) : List Identifier :=
  if m.claimed.contains name then m.supply.attempts (m.claimed.keys ++ own.keys) else []

/-- The names that are drawn when names are claimed in order. -/
def claimAllDraws (m : Claims) (own : Declarations) (renames : Renaming) :
    List (Identifier × Kind) → List Identifier
  | [] => []
  | (name, kind) :: rest =>
      let claimed := m.claim own name kind renames
      m.claimDraws own name ++ claimed.1.claimAllDraws own claimed.2 rest

/-- The claims after parts with the given parameters have claimed their names. -/
def claimParts (m : Claims) : List Declarations → Claims
  | [] => m
  | own :: rest => (m.claimAll own Table.empty own.entries).1.claimParts rest

/-- The names that are drawn for parts with the given parameters. -/
def partDraws (m : Claims) : List Declarations → List Identifier
  | [] => []
  | own :: rest =>
      m.claimAllDraws own Table.empty own.entries ++
        (m.claimAll own Table.empty own.entries).1.partDraws rest

/-- Claims are made part by part. -/
theorem claimParts_append (m : Claims) (first second : List Declarations) :
    m.claimParts (first ++ second) = (m.claimParts first).claimParts second := by
  induction first generalizing m with
  | nil => rfl
  | cons own rest ih => exact ih _

/-- What claims go through on the way from `m` to `m'`: names are drawn and events are
reported, and the targets that are reported are among the names that are drawn, in order. -/
structure Grows (m m' : Claims) (drawn : List Identifier) (reported : List Event) : Prop where
  supply : m.supply.Draws drawn m'.supply
  events : m'.events = m.events ++ reported
  targets : (reported.filterMap Event.target?).Sublist drawn

theorem Grows.refl (m : Claims) : m.Grows m [] [] :=
  ⟨.nil m.supply, (List.append_nil _).symm, .refl _⟩

/-- What is drawn and reported adds up along claims. -/
theorem Grows.trans {m m₁ m' : Claims} {drawn more : List Identifier}
    {reported later : List Event} (h : m.Grows m₁ drawn reported)
    (hlater : m₁.Grows m' more later) :
    m.Grows m' (drawn ++ more) (reported ++ later) where
  supply := h.supply.append hlater.supply
  events := by rw [hlater.events, h.events, List.append_assoc]
  targets := by
    rw [List.filterMap_append]
    exact h.targets.append hlater.targets

section Claim

variable {m : Claims} {own : Declarations} {name : Identifier} {kind : Kind} {renames : Renaming}

/-- A name that is taken is claimed under the first unused name, and the renaming is reported. -/
theorem claim_of_taken {target : Identifier} {left : NameSupply}
    (htaken : m.claimed.contains name = true)
    (hdrawn : m.supply.firstUnused (m.claimed.keys ++ own.keys) = (target, left)) :
    m.claim own name kind renames =
      (⟨m.claimed.insert target kind, left, m.events ++ [.renamed name target]⟩,
        renames.insert name.text target) := by
  rw [claim, if_pos htaken, hdrawn]

/-- A name that is free is claimed as it is, and nothing is reported. -/
theorem claim_of_free (hfree : ¬ m.claimed.contains name = true) :
    m.claim own name kind renames =
      (⟨m.claimed.insert name kind, m.supply, m.events⟩, renames) :=
  if_neg hfree

end Claim

/-- What claiming names adds to the renaming of a part is what it reports, in order. -/
theorem claimAll_records (m : Claims) (own : Declarations) (renames : Renaming)
    (es : List (Identifier × Kind)) (hnodup : (Entries.keys es).Nodup)
    (hnew : ∀ name ∈ Entries.keys es, name.text ∉ renames.keys) :
    ∃ added, (m.claimAll own renames es).2.entries = renames.entries ++ added ∧
      (m.claimAll own renames es).1.events.map Event.replacement? =
        m.events.map Event.replacement? ++ added.map some := by
  induction es generalizing m renames with
  | nil => exact ⟨[], (List.append_nil _).symm, (List.append_nil _).symm⟩
  | cons e rest ih =>
      obtain ⟨name, kind⟩ := e
      obtain ⟨hname, hnodup⟩ : name ∉ Entries.keys rest ∧ (Entries.keys rest).Nodup :=
        List.nodup_cons.1 hnodup
      obtain ⟨hnewName, hnew⟩ := List.forall_mem_cons.1 hnew
      rw [claimAll]
      by_cases htaken : m.claimed.contains name = true
      · obtain ⟨⟨target, left⟩, hdrawn⟩ :
            ∃ drawn, m.supply.firstUnused (m.claimed.keys ++ own.keys) = drawn := ⟨_, rfl⟩
        rw [claim_of_taken htaken hdrawn]
        -- the entry of this name is the last of the renaming, and no later name has its text
        have hlater : ∀ other ∈ Entries.keys rest,
            other.text ∉ (renames.insert name.text target).keys := by
          intro other hother hmem
          rw [Table.keys_insert, if_neg hnewName, List.mem_append, List.mem_singleton] at hmem
          rcases hmem with hold | htext
          · exact hnew other hother hold
          · exact hname (Identifier.ext_text htext ▸ hother)
        obtain ⟨added, hentries, hevents⟩ := ih _ _ hnodup hlater
        refine ⟨(name.text, target) :: added, ?_, ?_⟩
        · rw [hentries, Table.entries_insert hnewName, List.append_assoc]
          rfl
        · rw [hevents, List.map_append, List.append_assoc]
          rfl
      · rw [claim_of_free htaken]
        exact ih _ renames hnodup hnew

variable {β : Type} [Renameable β]

/-- Absorbing a part reports its renamings, in their order. -/
theorem absorb_records {m m' : Claims} {q : Parametrized β} {part : β × Renaming}
    (h : m.absorb q = (m', .ok part)) :
    m'.events.map Event.replacement? =
      m.events.map Event.replacement? ++ part.2.entries.map some := by
  unfold absorb at h
  split at h
  · simp at h
  · simp only [Prod.mk.injEq, Except.ok.injEq] at h
    obtain ⟨rfl, rfl⟩ := h
    obtain ⟨added, hentries, hevents⟩ := m.claimAll_records q.params Table.empty
      q.params.entries q.params.nodup (fun _ _ hmem => by cases hmem)
    rw [hevents, hentries]
    rfl

/-- Absorbing parts reports the renamings of each. -/
theorem absorbAll_records {m m' : Claims} {qs : List (Parametrized β)}
    {parts : List (β × Renaming)} (h : m.absorbAll qs = (m', .ok parts)) :
    m'.events.map Event.replacement? = m.events.map Event.replacement? ++
      ((parts.map Prod.snd).flatMap Table.entries).map some := by
  induction qs generalizing m parts with
  | nil =>
      cases h
      simp
  | cons q rest ih =>
      rw [absorbAll] at h
      split at h
      · simp at h
      · next m₁ part habsorb =>
          split at h
          · simp at h
          · next m₂ others hothers =>
              simp only [Prod.mk.injEq, Except.ok.injEq] at h
              obtain ⟨rfl, rfl⟩ := h
              rw [ih hothers, absorb_records habsorb, List.map_cons, List.flatMap_cons,
                List.map_append, List.append_assoc]

end Claims

/-! ## The parts that claim names -/

namespace Parametrized

variable {β : Type} [Renameable β]

/-- Whether a part declares every parameter that it uses. -/
def isClosed (q : Parametrized β) : Bool := q.undeclared?.isNone

/-- The parameters of the parts before the first that uses an undeclared one. -/
def claimants (qs : List (Parametrized β)) : List Declarations :=
  (qs.takeWhile isClosed).map Parametrized.params

/-- If all parts are closed, all of them claim names. -/
theorem claimants_of_closed {qs : List (Parametrized β)} (h : ∀ q ∈ qs, q.isClosed = true) :
    claimants qs = qs.map Parametrized.params := by
  rw [claimants, List.takeWhile_eq_self_iff.2 h]

theorem claimants_append {qs : List (Parametrized β)} (h : ∀ q ∈ qs, q.isClosed = true)
    (more : List (Parametrized β)) : claimants (qs ++ more) = claimants qs ++ claimants more := by
  rw [claimants, List.takeWhile_append_of_pos h, List.map_append, claimants_of_closed h,
    claimants]

/-- Behind a part that is not closed no names are claimed. -/
theorem claimants_append_of_open {qs : List (Parametrized β)}
    (h : ¬ ∀ q ∈ qs, q.isClosed = true) (more : List (Parametrized β)) :
    claimants (qs ++ more) = claimants qs := by
  have hshort : ¬ (qs.takeWhile isClosed).length = qs.length := by
    intro hlength
    refine h (List.takeWhile_eq_self_iff.1 ?_)
    exact (List.takeWhile_prefix isClosed).eq_of_length hlength
  rw [claimants, List.takeWhile_append, if_neg hshort, claimants]

end Parametrized

open Parametrized (claimants claimants_append claimants_append_of_open claimants_of_closed)

namespace Claims

variable {β : Type} [Renameable β]

/-- A part claims its names if it is closed, and none if it is not. -/
theorem absorb_claims (m : Claims) (q : Parametrized β) :
    (∃ part, m.absorb q = (m.claimParts (claimants [q]), .ok part) ∧ q.isClosed = true) ∨
      ∃ e, m.absorb q = (m.claimParts (claimants [q]), .error e) ∧ ¬ q.isClosed = true := by
  rw [absorb, claimants, Parametrized.isClosed, List.takeWhile_cons, Parametrized.isClosed]
  cases q.undeclared? with
  | none => exact .inl ⟨_, rfl, rfl⟩
  | some name => exact .inr ⟨_, rfl, Bool.false_ne_true⟩

/-- Absorbing parts lets them claim their names, up to the first that is refused. -/
theorem absorbAll_claims (m : Claims) (qs : List (Parametrized β)) :
    (∃ parts, m.absorbAll qs = (m.claimParts (claimants qs), .ok parts) ∧
      ∀ q ∈ qs, q.isClosed = true) ∨
    ∃ e, m.absorbAll qs = (m.claimParts (claimants qs), .error e) ∧
      ¬ ∀ q ∈ qs, q.isClosed = true := by
  induction qs generalizing m with
  | nil => exact .inl ⟨[], rfl, fun _ hq => (List.not_mem_nil hq).elim⟩
  | cons q rest ih =>
      rw [absorbAll, List.forall_mem_cons]
      rcases m.absorb_claims q with ⟨part, habsorb, hq⟩ | ⟨e, habsorb, hq⟩
      · have hparts : claimants (q :: rest) = claimants [q] ++ claimants rest :=
          claimants_append (List.forall_mem_singleton.2 hq) rest
        rw [habsorb, hparts, claimParts_append]
        rcases ih (m.claimParts (claimants [q])) with
          ⟨parts, hrest, hclosed⟩ | ⟨e, hrest, hopen⟩
        · exact .inl ⟨part :: parts, by simp only [hrest], hq, hclosed⟩
        · exact .inr ⟨e, by simp only [hrest], mt And.right hopen⟩
      · have hparts : claimants (q :: rest) = claimants [q] :=
          claimants_append_of_open (mt List.forall_mem_singleton.1 hq) rest
        rw [habsorb, hparts]
        exact .inr ⟨e, rfl, mt And.left hq⟩

/-- Parts that are all absorbed have all claimed their names. -/
theorem claimParts_of_absorbAll {m m' : Claims} {qs : List (Parametrized β)}
    {parts : List (β × Renaming)} (h : m.absorbAll qs = (m', .ok parts)) :
    m' = m.claimParts (claimants qs) ∧ ∀ q ∈ qs, q.isClosed = true := by
  rcases m.absorbAll_claims qs with ⟨others, habsorb, hclosed⟩ | ⟨e, habsorb, -⟩
  · rw [h] at habsorb
    cases habsorb
    exact ⟨rfl, hclosed⟩
  · rw [h] at habsorb
    cases habsorb

end Claims

namespace Conditional

/-- The parameters of the parts for which a merge claims names. -/
def claimants (cases : List (Parametrized Expr × Parametrized Statement)) :
    Option (Parametrized Statement) → List Declarations
  | none => []
  | some fallback => if cases = [] then [] else Parametrized.claimants (fragments cases fallback)

/-- The names that a merge draws, those that it passes over included. -/
def draws (cases : List (Parametrized Expr × Parametrized Statement))
    (fallback : Option (Parametrized Statement)) (supply : NameSupply) : List Identifier :=
  Claims.partDraws ⟨Table.empty, supply, []⟩ (claimants cases fallback)

section Embed

variable {β : Type} [Renameable β] (embed : β → Fragment)
  (hembed : ∀ b, Renameable.placeholders (embed b) = Renameable.placeholders b)
include hembed

theorem isClosed_embed (q : Parametrized β) :
    (⟨q.params, embed q.body⟩ : Parametrized Fragment).isClosed = q.isClosed := by
  rw [Parametrized.isClosed, Parametrized.isClosed, Parametrized.undeclared?,
    Parametrized.undeclared?, hembed]

theorem claimants_embed (qs : List (Parametrized β)) :
    Parametrized.claimants (qs.map fun q => (⟨q.params, embed q.body⟩ : Parametrized Fragment)) =
      Parametrized.claimants qs := by
  rw [Parametrized.claimants, List.takeWhile_map, List.map_map]
  refine congrArg (fun p : Parametrized β → Bool =>
    (qs.takeWhile p).map Parametrized.params) ?_
  funext q
  exact isClosed_embed embed hembed q

end Embed

/-- The parts that claim names are those of the conditions; if none of them is refused, then
those of the arms; and if none of them is refused either, the fallback. -/
theorem claimants_cases (cases : List (Parametrized Expr × Parametrized Statement))
    (fallback : Parametrized Statement) (hcases : cases ≠ []) :
    ((¬ ∀ q ∈ cases.map Prod.fst, q.isClosed = true) →
      claimants cases (some fallback) = Parametrized.claimants (cases.map Prod.fst)) ∧
    ((∀ q ∈ cases.map Prod.fst, q.isClosed = true) →
      (¬ ∀ q ∈ cases.map Prod.snd, q.isClosed = true) →
        claimants cases (some fallback) = Parametrized.claimants (cases.map Prod.fst) ++
          Parametrized.claimants (cases.map Prod.snd)) ∧
    ((∀ q ∈ cases.map Prod.fst, q.isClosed = true) →
      (∀ q ∈ cases.map Prod.snd, q.isClosed = true) →
        claimants cases (some fallback) = Parametrized.claimants (cases.map Prod.fst) ++
          (Parametrized.claimants (cases.map Prod.snd) ++ Parametrized.claimants [fallback])) := by
  have hconditions := claimants_embed Fragment.expr (fun _ => rfl) (cases.map Prod.fst)
  have harms := claimants_embed Fragment.statement (fun _ => rfl) (cases.map Prod.snd ++ [fallback])
  have hclosed : (∀ q ∈ (cases.map Prod.fst).map
      (fun q => (⟨q.params, .expr q.body⟩ : Parametrized Fragment)), q.isClosed = true) ↔
        ∀ q ∈ cases.map Prod.fst, q.isClosed = true := by
    rw [List.forall_mem_map]
    exact Iff.rfl
  rw [claimants, if_neg hcases, fragments]
  refine ⟨fun h => ?_, fun h h' => ?_, fun h h' => ?_⟩
  · rw [claimants_append_of_open (mt hclosed.1 h), hconditions]
  · rw [claimants_append (hclosed.2 h), hconditions, harms, claimants_append_of_open h']
  · rw [claimants_append (hclosed.2 h), hconditions, harms, claimants_append h']

/-- A merge does nothing to its supply but let its parts claim their names, and this is all
that it reports, whatever it ends with. -/
theorem select_claims (cases : List (Parametrized Expr × Parametrized Statement))
    (fallback : Option (Parametrized Statement)) (supply : NameSupply) :
    let m := Claims.claimParts ⟨Table.empty, supply, []⟩ (claimants cases fallback)
    (select cases fallback supply).2 = m.supply ∧
      (select cases fallback supply).1.events = m.events := by
  intro m
  cases fallback with
  | none => exact ⟨rfl, rfl⟩
  | some last =>
      by_cases hcases : cases = []
      · subst hcases
        exact ⟨rfl, rfl⟩
      · have hempty := List.isEmpty_eq_false_iff.2 hcases
        obtain ⟨hfirst, hsecond, hthird⟩ := claimants_cases cases last hcases
        -- the merge stops where one of the three stages fails, and otherwise runs through them
        rcases Claims.absorbAll_claims ⟨Table.empty, supply, []⟩ (cases.map Prod.fst) with
          ⟨conditions, hconditions, hclosed⟩ | ⟨e, hconditions, hopen⟩
        · rcases Claims.absorbAll_claims (Claims.claimParts ⟨Table.empty, supply, []⟩
              (Parametrized.claimants (cases.map Prod.fst))) (cases.map Prod.snd) with
            ⟨arms, harms, hclosed'⟩ | ⟨e, harms, hopen⟩
          · have hparts := hthird hclosed hclosed'
            rcases Claims.absorb_claims (Claims.claimParts (Claims.claimParts
                ⟨Table.empty, supply, []⟩ (Parametrized.claimants (cases.map Prod.fst)))
                (Parametrized.claimants (cases.map Prod.snd))) last with
              ⟨part, hlast, -⟩ | ⟨e, hlast, -⟩
            · simp [select, hempty, hconditions, harms, hlast, m, hparts, Claims.claimParts_append]
            · simp [select, hempty, hconditions, harms, hlast, m, hparts, Claims.claimParts_append]
          · simp [select, hempty, hconditions, harms, m, hsecond hclosed hopen,
              Claims.claimParts_append]
        · simp [select, hempty, hconditions, m, hfirst hopen]

section Select

variable {cases : List (Parametrized Expr × Parametrized Statement)}
  {fallback : Option (Parametrized Statement)} {supply : NameSupply} {c : Conditional}

/-- A merge that succeeds was given a fallback. -/
theorem exists_fallback (h : (select cases fallback supply).1.result = .ok c) :
    ∃ last events left, fallback = some last ∧
      select cases (some last) supply = (⟨.ok c, events⟩, left) := by
  cases fallback with
  | none => cases h
  | some last =>
      refine ⟨last, (select cases (some last) supply).1.events,
        (select cases (some last) supply).2, rfl, ?_⟩
      rw [← h]

/-- A merge that succeeds has let all of its parts claim their names. -/
theorem claimants_of_select {last : Parametrized Statement} {events : List Event}
    {left : NameSupply} (h : select cases (some last) supply = (⟨.ok c, events⟩, left)) :
    claimants cases (some last) = (fragments cases last).map Parametrized.params := by
  have hcases : cases ≠ [] := by
    rintro rfl
    simp [select] at h
  obtain ⟨m, m', conditions, arms, choice, hconditions, harms, -⟩ := absorbed_of_select h
  obtain ⟨-, hclosed⟩ := Claims.claimParts_of_absorbAll hconditions
  obtain ⟨-, hclosed'⟩ := Claims.claimParts_of_absorbAll harms
  rw [claimants, if_neg hcases]
  apply claimants_of_closed
  rw [fragments, List.forall_mem_append]
  exact ⟨List.forall_mem_map.2 hclosed, List.forall_mem_map.2 hclosed'⟩

/-- The replacements that a successful merge reports are those that it keeps in its
renamings, those of the conditions first. -/
theorem select_records {last : Parametrized Statement} {events : List Event}
    {left : NameSupply} (h : select cases (some last) supply = (⟨.ok c, events⟩, left)) :
    events.map Event.replacement? =
      ((c.conditionRenamings ++ c.armRenamings).flatMap Table.entries).map some := by
  have hcases : cases ≠ [] := by
    rintro rfl
    simp [select] at h
  obtain ⟨m, m', conditions, arms, choice, hconditions, harms, -, -, hconditionRenamings,
    harmRenamings, -⟩ := absorbed_of_select h
  obtain ⟨hm, hclosed⟩ := Claims.claimParts_of_absorbAll hconditions
  obtain ⟨hm', hclosed'⟩ := Claims.claimParts_of_absorbAll harms
  have hevents : events = m'.events := by
    obtain ⟨-, hreported⟩ := select_claims cases (some last) supply
    obtain ⟨harmsClosed, -⟩ := List.forall_mem_append.1 hclosed'
    obtain ⟨-, -, hall⟩ := claimants_cases cases last hcases
    rw [h, hall hclosed harmsClosed, ← claimants_append harmsClosed, Claims.claimParts_append,
      ← hm, ← hm'] at hreported
    exact hreported
  rw [hevents, Claims.absorbAll_records harms, Claims.absorbAll_records hconditions,
    hconditionRenamings, harmRenamings, List.flatMap_append, List.map_append]
  rfl

end Select

end Conditional

end GraphQuery
