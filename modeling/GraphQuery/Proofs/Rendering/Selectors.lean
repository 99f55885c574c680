import GraphQuery.Proofs.Layout.Balance
import GraphQuery.Proofs.Renaming.Text
import GraphQuery.Proofs.Rendering.Scope
import Mathlib.Data.List.Nodup

/-!
# Selectors

The selectors of a rendering are the next names of its supply, one for each conditional, in
the order in which the conditionals begin in the text. Nothing else in the text depends on
the supply.

Main statement: `Fragment.selectors_render`.
-/

set_option autoImplicit false

namespace GraphQuery

/-! ## Numbers of the conditionals -/

mutual

/-- Conditionals are numbered in the order in which they are listed. -/
theorem Clause.number_occurrences (follows inside : Bool) : ∀ (c : Clause) (number : Nat),
    (c.occurrences follows inside number).map Occurrence.number =
      List.range' number c.choiceCount
  | .subquery body, number => Statement.number_occurrences false body number
  | .choice arms, number => Choice.number_occurrences follows inside arms number
  | .matching .., _ => rfl
  | .passing .., _ => rfl
  | .unwind .., _ => rfl
  | .create .., _ => rfl
  | .setKey .., _ => rfl
  | .delete .., _ => rfl
  | .returning .., _ => rfl
  | .orderBy .., _ => rfl
  | .skip .., _ => rfl
  | .limit .., _ => rfl

theorem Choice.number_occurrences (follows inside : Bool) : ∀ (c : Choice) (number : Nat),
    (c.occurrences follows inside number).map Occurrence.number =
      List.range' number c.choiceCount
  | ⟨cases, fallback, columns⟩, number => by
      rw [Choice.occurrences, List.map_cons, List.map_append,
        Choice.number_caseOccurrences inside cases, Statement.number_occurrences inside fallback,
        List.range'_append_1, Choice.choiceCount, Nat.add_assoc, Nat.add_comm 1, List.range'_succ]

theorem Choice.number_caseOccurrences (inside : Bool) :
    ∀ (cases : List (Expr × Statement)) (number : Nat),
      (Choice.caseOccurrences inside number cases).map Occurrence.number =
        List.range' number (Choice.caseCount cases)
  | [], _ => rfl
  | (_, arm) :: rest, number => by
      rw [Choice.caseOccurrences, List.map_append, Statement.number_occurrences inside arm,
        Choice.number_caseOccurrences inside rest, List.range'_append_1, Choice.caseCount]

theorem Query.number_occurrences (inside : Bool) : ∀ (q : Query) (number : Nat),
    (q.occurrencesFrom inside number).map Occurrence.number = List.range' number q.choiceCount
  | ⟨[]⟩, _ => rfl
  | ⟨first :: rest⟩, number => by
      rw [Query.occurrencesFrom, List.map_append, Clause.number_occurrences false inside first,
        Clause.number_laterOccurrences rest, List.range'_append_1]
      rfl

theorem Clause.number_laterOccurrences : ∀ (cs : List Clause) (number : Nat),
    (Clause.laterOccurrences number cs).map Occurrence.number =
      List.range' number (Clause.listCount cs)
  | [], _ => rfl
  | clause :: rest, number => by
      rw [Clause.laterOccurrences, List.map_append, Clause.number_occurrences true true clause,
        Clause.number_laterOccurrences rest, List.range'_append_1, Clause.listCount]

theorem Query.number_listOccurrences (inside : Bool) : ∀ (qs : List Query) (number : Nat),
    (Query.listOccurrences inside number qs).map Occurrence.number =
      List.range' number (Query.listCount qs)
  | [], _ => rfl
  | query :: rest, number => by
      rw [Query.listOccurrences, List.map_append, Query.number_occurrences inside query,
        Query.number_listOccurrences inside rest, List.range'_append_1, Query.listCount]

theorem Statement.number_occurrences (inside : Bool) : ∀ (s : Statement) (number : Nat),
    (s.occurrences inside number).map Occurrence.number = List.range' number s.choiceCount
  | ⟨first, more, union⟩, number => by
      rw [Statement.occurrences, List.map_append, Query.number_occurrences inside first,
        Query.number_listOccurrences inside more, List.range'_append_1, Statement.choiceCount]

end

theorem Fragment.number_occurrences (f : Fragment) :
    f.occurrences.map Occurrence.number = List.range f.choiceCount := by
  rw [List.range_eq_range']
  cases f with
  | clause c => exact Clause.number_occurrences false false c 0
  | query q => exact Query.number_occurrences false q 0
  | statement s => exact Statement.number_occurrences false s 0
  | expr _ | node _ | relationship _ | length _ | path _ | projection _ => rfl

/-! ## Selectors of the conditionals -/

namespace Occurrence

/-- The selector of a conditional in a rendering from `supply`. -/
def selector (supply : NameSupply) (o : Occurrence) : Identifier :=
  supply.stem.numbered (supply.issued + o.number)

/-- A conditional writes its selector where it is computed and in the guard of each query of
its arms. -/
theorem pieces_eq (supply : NameSupply) (o : Occurrence) :
    o.pieces supply =
      Choice.selectorPieces o.follows (o.selector supply) o.choice.conditions ++ .lineBreak ::
        .openBody ::
          (Choice.unionPieces (Choice.guardedPieces (Choice.guardPieces o.follows
            (o.selector supply)) (supply.after (o.number + 1)) o.choice.armQueries) ++
            .closeBody :: .lineBreak :: Choice.returnPieces o.choice.columns) :=
  o.choice.pieces_eq o.follows (supply.after o.number)

end Occurrence

namespace Fragment

/-- A conditional is written in one place of the text of a fragment. -/
structure Writes (f : Fragment) (supply : NameSupply) (o : Occurrence) : Prop where
  /-- In every layout its pieces stand in the text, written at the depth of the place. -/
  layouts : ∀ layout, ∃ depth before behind, (f.render layout supply).1.text =
    before ++ String.ofList (Piece.write layout depth (o.pieces supply)) ++ behind
  /-- In the compact layout it reads alike at every depth. -/
  compact : ∃ before behind, (f.render .compact supply).1.text =
    before ++ o.written o.follows supply ++ behind

theorem writes_of_mem_occurrences (f : Fragment) (supply : NameSupply) {o : Occurrence}
    (ho : o ∈ f.occurrences) : f.Writes supply o := by
  constructor
  · intro layout
    have hinfix := (f.placed_pieces supply).isInfix o ho
    obtain ⟨depth, before, behind, hwrite⟩ := Piece.exists_write_of_infix hinfix layout
    refine ⟨depth, String.ofList before, String.ofList behind, ?_⟩
    rw [← String.ofList_append, ← String.ofList_append, ← hwrite]
    rfl
  · rw [← o.text_eq_written]
    exact f.text_of_mem_occurrences supply ho

theorem map_selector_occurrences (f : Fragment) (supply : NameSupply) :
    f.occurrences.map (Occurrence.selector supply) =
      (List.range f.choiceCount).map fun k => supply.stem.numbered (supply.issued + k) := by
  rw [← f.number_occurrences, List.map_map]
  rfl

theorem nodup_selectors (f : Fragment) (supply : NameSupply) :
    (f.occurrences.map (Occurrence.selector supply)).Nodup := by
  rw [f.map_selector_occurrences]
  exact List.Nodup.map
    (fun j k hjk => Nat.add_left_cancel (Identifier.numbered_injective hjk)) List.nodup_range

/-- From another supply, a fragment has the same pieces with the selectors redrawn. -/
theorem pieces_redraw (f : Fragment) {g : Identifier → Identifier} {own names : NameSupply}
    (h : NameSupply.Redraws g own names f.choiceCount) :
    (f.pieces names).1 = (f.pieces own).1.map (Piece.edit (.ofSelectors g)) := by
  -- the syntax has no selectors, so this edit and the one that changes nothing agree on it
  have hsyntax : f.edit (.ofSelectors g) = f.edit (.ofSelectors id) :=
    (f.mapPlaceholders_eq_edit id g).symm.trans (f.mapPlaceholders_eq_edit id id)
  have hkeep : Piece.edit (.ofSelectors id) = id := by
    funext p
    cases p <;> rfl
  have hsame := congrArg Prod.fst (f.pieces_edit (.ofSelectors id) (.refl names f.choiceCount))
  rw [← hsyntax, f.pieces_edit (.ofSelectors g) h, hkeep, List.map_id] at hsame
  exact hsame.symm

/-- The selectors of a text are those of the conditionals. -/
theorem selector_mem (f : Fragment) (supply : NameSupply) {id : Identifier}
    (h : .selector id ∈ (f.pieces supply).1) :
    id ∈ f.occurrences.map (Occurrence.selector supply) := by
  by_contra hid
  -- if it were drawn for none of them, it could be replaced by any name
  have hreplaced (target : Identifier) : target = id := by
    have hredraws : NameSupply.Redraws (fun x => if x ∈ f.occurrences.map
        (Occurrence.selector supply) then x else target) supply supply f.choiceCount := by
      intro k hk
      refine if_pos ?_
      rw [f.map_selector_occurrences]
      exact List.mem_map_of_mem (List.mem_range.2 hk)
    have hpieces := f.pieces_redraw hredraws
    have hfixed := List.map_inj_left.1 (hpieces.symm.trans (List.map_id _).symm) _ h
    have hselector : (if id ∈ f.occurrences.map (Occurrence.selector supply) then id
        else target) = id := Piece.selector.inj hfixed
    rwa [if_neg hid] at hselector
  have hnumber := Identifier.numbered_injective
    ((hreplaced (supply.stem.numbered 0)).trans (hreplaced (supply.stem.numbered 1)).symm)
  cases hnumber

end Fragment

/-! ## Identifiers -/

/-- The identifier that a piece writes, if it is no selector. -/
def Piece.identifier? : Piece → Option Identifier
  | .name id => some id
  | .placeholder p => some p.name
  | _ => none

namespace Fragment

/-- The identifiers that a fragment writes, those of its placeholders included. -/
def identifiers (f : Fragment) : List Identifier :=
  (f.pieces .fresh).1.filterMap Piece.identifier?

/-- The identifiers that a fragment writes do not depend on the supply. -/
theorem filterMap_identifier?_pieces (f : Fragment) (supply : NameSupply) :
    (f.pieces supply).1.filterMap Piece.identifier? = f.identifiers := by
  have hkeep (g : Identifier → Identifier) :
      Piece.identifier? ∘ Piece.edit (.ofSelectors g) = Piece.identifier? := by
    funext p
    cases p <;> rfl
  rw [f.pieces_redraw (NameSupply.redraws_renumber .fresh supply f.choiceCount),
    List.filterMap_map, hkeep]
  rfl

/-- A fragment draws one selector for each conditional, numbered on from the supply in the
order in which the conditionals begin in its text, and the pieces of each conditional are
written in that text in both layouts. The selectors are distinct, and distinct from identifiers
that are not numbered names of the supply. From another supply the fragment has the same
placeholders, the same identifiers, and the same text but for the selectors. -/
theorem selectors_render (f : Fragment) (supply : NameSupply) :
    (∀ layout, (f.render layout supply).2 = supply.after f.choiceCount) ∧
    Placed supply f.occurrences (f.pieces supply).1 ∧
    f.occurrences.map Occurrence.number = List.range f.choiceCount ∧
    (∀ o ∈ f.occurrences, o.pieces supply =
      Choice.selectorPieces o.follows (o.selector supply) o.choice.conditions ++ .lineBreak ::
        .openBody ::
          (Choice.unionPieces (Choice.guardedPieces (Choice.guardPieces o.follows
            (o.selector supply)) (supply.after (o.number + 1)) o.choice.armQueries) ++
            .closeBody :: .lineBreak :: Choice.returnPieces o.choice.columns)) ∧
    (∀ o ∈ f.occurrences, f.Writes supply o) ∧
    (∀ id, .selector id ∈ (f.pieces supply).1 →
      id ∈ f.occurrences.map (Occurrence.selector supply)) ∧
    (f.occurrences.map (Occurrence.selector supply)).Nodup ∧
    ((∀ id ∈ f.identifiers, ∀ n, id ≠ supply.stem.numbered n) →
      ∀ id ∈ f.identifiers, id ∉ f.occurrences.map (Occurrence.selector supply)) ∧
    ∀ other layout,
      (∀ o ∈ f.occurrences,
        supply.renumber other f.choiceCount (o.selector supply) = o.selector other) ∧
      (f.render layout other).1.text = f.renumberedText layout supply other ∧
      (f.render layout other).1.uses = (f.render layout supply).1.uses ∧
      (f.pieces other).1.filterMap Piece.identifier? = f.identifiers := by
  refine ⟨fun _ => f.supply_pieces supply, f.placed_pieces supply, f.number_occurrences,
    fun o _ => o.pieces_eq supply, fun _ => f.writes_of_mem_occurrences supply,
    fun _ => f.selector_mem supply, f.nodup_selectors supply, ?_,
    fun other layout => ⟨?_, ?_, ?_, f.filterMap_identifier?_pieces other⟩⟩
  · intro hfresh id hid hmem
    obtain ⟨o, -, rfl⟩ := List.mem_map.1 hmem
    exact hfresh _ hid (supply.issued + o.number) rfl
  · intro o ho
    have hnumber := List.mem_map_of_mem (f := Occurrence.number) ho
    rw [f.number_occurrences, List.mem_range] at hnumber
    exact supply.redraws_renumber other f.choiceCount o.number hnumber
  · have hpieces := f.pieces_redraw (supply.redraws_renumber other f.choiceCount)
    exact congrArg (fun ps => String.ofList (Piece.write layout 0 ps)) hpieces
  · have huses (names : NameSupply) :
        (f.render layout names).1.uses = f.placeholders.eraseDups :=
      congrArg List.eraseDups (f.placeholders_pieces names)
    rw [huses, huses]

/-- The nested query names variables and parameters, none of which begins like a selector. -/
theorem selectors_render_nested :
    (∀ id ∈ (Fragment.query Sample.nested).identifiers, ∀ n,
      id ≠ NameSupply.fresh.stem.numbered n) ∧
    ∀ id ∈ (Fragment.query Sample.nested).identifiers,
      id ∉ (Fragment.query Sample.nested).occurrences.map (Occurrence.selector .fresh) := by
  have hheads : ∀ id ∈ (Fragment.query Sample.nested).identifiers,
      id.text.toList.head? ≠ some '_' := by decide +kernel
  have hfresh : ∀ id ∈ (Fragment.query Sample.nested).identifiers, ∀ n,
      id ≠ NameSupply.fresh.stem.numbered n := by
    intro id hid n hn
    refine hheads id hid ?_
    rw [hn]
    exact congrArg List.head? String.toList_ofList
  exact ⟨hfresh, (selectors_render (.query Sample.nested) .fresh).2.2.2.2.2.2.2.1 hfresh⟩

end Fragment

end GraphQuery
