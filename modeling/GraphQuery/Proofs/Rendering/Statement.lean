import GraphQuery.Proofs.Rendering.Pattern
import GraphQuery.Rendering.Statement

/-!
# Spacing and placeholders of statements

The pieces of clauses, queries and statements are well spaced whichever names are
drawn for the selectors, and they show the placeholders of the syntax in order.
-/

set_option autoImplicit false

namespace GraphQuery

open Piece (WellSpaced startsApart)

namespace Piece

/-- Lists of pieces behind which any well spaced pieces may follow. -/
def LeadsOn (xs : List Piece) : Prop := ∀ rest, WellSpaced rest → WellSpaced (xs ++ rest)

theorem LeadsOn.append {xs ys : List Piece} (hx : LeadsOn xs) (hy : LeadsOn ys) :
    LeadsOn (xs ++ ys) := by
  intro rest hrest
  rw [List.append_assoc]
  exact hx _ (hy rest hrest)

theorem wellSpaced_separated : ∀ groups : List (List Piece), (∀ g ∈ groups, WellSpaced g) →
    WellSpaced (separated comma groups)
  | [], _ => trivial
  | [g], h => h g List.mem_cons_self
  | g :: g' :: rest, h => by
      have hrest := wellSpaced_separated (g' :: rest) fun x hx => h x (List.mem_cons_of_mem g hx)
      rw [separated, List.append_assoc]
      · exact (h g List.mem_cons_self).append (.closed (by decide) hrest) rfl
      · simp

/-- What is kept of groups with commas in the gaps is what is kept of the groups, if
nothing is kept of a comma. -/
theorem filterMap_separated {β : Type} {keep : Piece → Option β}
    (hcomma : comma.filterMap keep = []) : ∀ groups : List (List Piece),
    (separated comma groups).filterMap keep = groups.flatMap (List.filterMap keep)
  | [] => rfl
  | [g] => by simp [separated]
  | g :: g' :: rest => by
      have hrest := filterMap_separated hcomma (g' :: rest)
      rw [separated, List.filterMap_append, List.filterMap_append, hcomma, hrest,
        List.append_nil]
      · rfl
      · simp

theorem placeholders_separated (groups : List (List Piece)) :
    placeholders (separated comma groups) = groups.flatMap placeholders :=
  filterMap_separated rfl groups

theorem wellSpaced_commaMap {α : Type} {f : α → List Piece} (hw : ∀ a, WellSpaced (f a))
    (as : List α) : WellSpaced (separated comma (as.map f)) := by
  refine wellSpaced_separated _ fun g hg => ?_
  obtain ⟨a, -, rfl⟩ := List.mem_map.1 hg
  exact hw a

theorem placeholders_commaMap {α : Type} (f : α → List Piece) (as : List α) :
    placeholders (separated comma (as.map f)) = as.flatMap fun a => placeholders (f a) := by
  rw [placeholders_separated, List.flatMap_map]

end Piece

/-! ## Projections -/

theorem wellSpaced_filterPieces (filter : Option Expr) :
    WellSpaced (filterPieces filter) ∧ startsApart (filterPieces filter) = true := by
  cases filter with
  | none => exact ⟨trivial, rfl⟩
  | some condition => exact ⟨.closed (by decide) condition.wellSpaced_pieces, rfl⟩

theorem placeholders_filterPieces (filter : Option Expr) :
    Piece.placeholders (filterPieces filter) = Expr.fallbackPlaceholders filter := by
  cases filter with
  | none => rfl
  | some condition =>
      simp [filterPieces, Expr.fallbackPlaceholders, Expr.placeholders_pieces]

theorem Column.wellSpaced_pieces (item : Column) : WellSpaced item.pieces := by
  have hexpr := item.expr.wellSpaced_pieces
  unfold Column.pieces
  cases item.alias? with
  | none => exact hexpr
  | some id => exact hexpr.append (.closed (by decide) (.apart rfl rfl trivial)) rfl

theorem Column.placeholders_pieces (item : Column) :
    Piece.placeholders item.pieces = item.expr.placeholders := by
  unfold Column.pieces
  cases item.alias? <;> simp [Expr.placeholders_pieces]

theorem placeholders_columnPieces (items : List Column) :
    Piece.placeholders (columnPieces items) = items.flatMap fun item => item.expr.placeholders := by
  simp [columnPieces, Piece.placeholders_commaMap, Column.placeholders_pieces]

theorem Selection.wellSpaced_pieces (s : Selection) : WellSpaced s.pieces := by
  cases s with
  | everything more =>
      cases more with
      | nil => exact .closed (by decide) trivial
      | cons first rest =>
          have hcolumns := Piece.wellSpaced_commaMap Column.wellSpaced_pieces (first :: rest)
          exact .closed (by decide) (.closed (by decide) hcolumns)
  | items first more => exact Piece.wellSpaced_commaMap Column.wellSpaced_pieces (first :: more)

theorem Projection.wellSpaced_pieces (p : Projection) : WellSpaced p.pieces := by
  have hselection := p.selection.wellSpaced_pieces
  unfold Projection.pieces
  split
  · exact .closed (by decide) hselection
  · exact hselection

theorem Projection.placeholders_pieces (p : Projection) :
    Piece.placeholders p.pieces = p.placeholders := by
  have hselection : Piece.placeholders p.selection.pieces = p.placeholders := by
    unfold Projection.placeholders Projection.items
    cases p.selection with
    | everything more =>
        cases more with
        | nil => rfl
        | cons first rest => simp [Selection.pieces, placeholders_columnPieces]
    | items first more => exact placeholders_columnPieces (first :: more)
  unfold Projection.pieces
  split <;> simp [hselection]

theorem SortKey.wellSpaced_pieces (item : SortKey) : WellSpaced item.pieces := by
  have hexpr := item.expr.wellSpaced_pieces
  unfold SortKey.pieces
  cases item.descending
  · exact hexpr.append_word (by decide) (by decide)
  · exact hexpr.append_word (by decide) (by decide)

theorem SortKey.placeholders_pieces (item : SortKey) :
    Piece.placeholders item.pieces = item.expr.placeholders := by
  simp [SortKey.pieces, Expr.placeholders_pieces]

/-! ## Clauses of a conditional -/

namespace Choice

theorem startsApart_whenPieces (conditions : List Expr) (number : Nat) :
    startsApart (whenPieces conditions number) = true := by
  cases conditions with
  | nil => rfl
  | cons condition rest => rfl

theorem wellSpaced_whenPieces (conditions : List Expr) (number : Nat) :
    WellSpaced (whenPieces conditions number) := by
  induction conditions generalizing number with
  | nil => trivial
  | cons condition rest ih =>
      have hrest := startsApart_whenPieces rest (number + 1)
      have hnumber :
          WellSpaced (.word (Number.naturalText number) :: whenPieces rest (number + 1)) :=
        .apart (isPlain_naturalText number) hrest (ih (number + 1))
      exact WellSpaced.append (.closed (by decide) condition.wellSpaced_pieces)
        (.closed (by decide) hnumber) rfl

theorem placeholders_whenPieces (conditions : List Expr) (number : Nat) :
    Piece.placeholders (whenPieces conditions number) = conditions.flatMap Expr.placeholders := by
  induction conditions generalizing number with
  | nil => rfl
  | cons condition rest ih => simp [whenPieces, Expr.placeholders_pieces, ih]

theorem wellSpaced_scopePieces (keepsScope : Bool) (selector : Identifier) :
    WellSpaced (scopePieces keepsScope selector) := by
  cases keepsScope with
  | false => exact .apart rfl rfl trivial
  | true => exact .closed (by decide) trivial

theorem placeholders_scopePieces (keepsScope : Bool) (selector : Identifier) :
    Piece.placeholders (scopePieces keepsScope selector) = [] := by
  cases keepsScope <;> rfl

theorem wellSpaced_selectorPieces (keepsScope : Bool) (selector : Identifier)
    (conditions : List Expr) : WellSpaced (selectorPieces keepsScope selector conditions) := by
  have hwhen := wellSpaced_whenPieces conditions 0
  have hcase : WellSpaced (.word "CASE" :: whenPieces conditions 0) :=
    .apart (by decide) (startsApart_whenPieces conditions 0) hwhen
  have hend : WellSpaced [.word " ELSE ", .word (Number.naturalText conditions.length),
      .word " END AS ", .selector selector] :=
    .closed (by decide) (.apart (isPlain_naturalText _) rfl
      (.closed (by decide) (.apart rfl rfl trivial)))
  unfold selectorPieces
  cases keepsScope with
  | false => exact (WellSpaced.closed (p := .word "WITH ") (by decide) hcase).append hend rfl
  | true =>
      exact (WellSpaced.closed (p := .word "WITH ") (by decide)
        (.closed (p := .word "*, ") (by decide) hcase)).append hend rfl

theorem placeholders_selectorPieces (keepsScope : Bool) (selector : Identifier)
    (conditions : List Expr) :
    Piece.placeholders (selectorPieces keepsScope selector conditions) =
      conditions.flatMap Expr.placeholders := by
  cases keepsScope <;> simp [selectorPieces, placeholders_whenPieces]

/-- A guard ends its line, so that any query may stand behind it. -/
theorem leadsOn_guardPieces (keepsScope : Bool) (selector : Identifier) (number : Nat) :
    Piece.LeadsOn (guardPieces keepsScope selector number) := by
  intro rest hrest
  have hscope := wellSpaced_scopePieces keepsScope selector
  have htest : WellSpaced ([.word " WHERE ", .selector selector, .word " = ",
      .word (Number.naturalText number), .lineBreak] ++ rest) :=
    .closed (by decide) (.apart rfl rfl (.closed (by decide)
      (.apart (isPlain_naturalText number) rfl (.closed rfl hrest))))
  have hfirst := WellSpaced.closed (p := .word "WITH ") (by decide) hscope
  have hsecond := WellSpaced.closed (p := .lineBreak) rfl hfirst
  rw [guardPieces, List.append_assoc]
  exact (hfirst.append hsecond rfl).append htest rfl

theorem placeholders_guardPieces (keepsScope : Bool) (selector : Identifier) (number : Nat) :
    Piece.placeholders (guardPieces keepsScope selector number) = [] := by
  simp [guardPieces, placeholders_scopePieces]

theorem wellSpaced_returnPieces (columns : List Identifier) :
    WellSpaced (returnPieces columns) :=
  .closed (by decide)
    (Piece.wellSpaced_commaMap (f := fun id => [.name id]) (fun _ => .apart rfl rfl trivial)
      columns)

theorem placeholders_returnPieces (columns : List Identifier) :
    Piece.placeholders (returnPieces columns) = [] := by
  simp [returnPieces, Piece.placeholders_commaMap]

end Choice

theorem UnionMode.leadsOn_pieces (mode : UnionMode) : Piece.LeadsOn mode.pieces := by
  intro rest hrest
  have hwords : (Piece.word mode.words).isPlain = true := by cases mode <;> decide
  exact .closed rfl (.apart hwords rfl (.closed rfl hrest))

theorem UnionMode.placeholders_pieces (mode : UnionMode) :
    Piece.placeholders mode.pieces = [] :=
  rfl

/-! ## Clauses, queries and statements -/

mutual

/-- The pieces of a clause are well spaced, whatever the supply. -/
theorem Clause.wellSpaced_pieces (keepsScope : Bool) :
    ∀ (c : Clause) (supply : NameSupply), WellSpaced (c.pieces keepsScope supply).1
  | .matching optional first more filter, _ => by
      have hpaths := Piece.wellSpaced_commaMap Path.wellSpaced_pieces (first :: more)
      have hfilter := wellSpaced_filterPieces filter
      have hword :
          (Piece.word (if optional then "OPTIONAL MATCH " else "MATCH ")).isClosed = true := by
        cases optional <;> decide
      exact WellSpaced.append (.closed hword hpaths) hfilter.1 hfilter.2
  | .passing projection filter, _ => by
      have hfilter := wellSpaced_filterPieces filter
      have hprojection := projection.wellSpaced_pieces
      exact WellSpaced.append (.closed (p := .word "WITH ") (by decide) hprojection) hfilter.1
        hfilter.2
  | .unwind list element, _ =>
      WellSpaced.append (.closed (p := .word "UNWIND ") (by decide) list.wellSpaced_pieces)
        (.closed (p := .word " AS ") (by decide) (.apart rfl rfl trivial)) rfl
  | .create path, _ => .closed (by decide) path.wellSpaced_pieces
  | .setKey var key value, _ => by
      have hvalue : WellSpaced (.word " = " :: value.pieces) :=
        .closed (by decide) value.wellSpaced_pieces
      exact .closed (by decide) (.apart rfl rfl (.closed (by decide) (.apart rfl rfl hvalue)))
  | .delete detach subject, _ => by
      have hword :
          (Piece.word (if detach then "DETACH DELETE " else "DELETE ")).isClosed = true := by
        cases detach <;> decide
      exact .closed hword subject.wellSpaced_pieces
  | .returning projection, _ => .closed (by decide) projection.wellSpaced_pieces
  | .orderBy items, _ =>
      .closed (by decide) (Piece.wellSpaced_commaMap SortKey.wellSpaced_pieces items)
  | .skip count, _ => .closed (by decide) count.wellSpaced_pieces
  | .limit count, _ => .closed (by decide) count.wellSpaced_pieces
  | .subquery body, supply =>
      WellSpaced.append (.closed (p := .openBody) rfl (Statement.wellSpaced_pieces body supply))
        (.closed (p := .closeBody) rfl trivial) rfl
  | .choice arms, supply => Choice.wellSpaced_pieces keepsScope arms supply

theorem Choice.wellSpaced_pieces (keepsScope : Bool) :
    ∀ (c : Choice) (supply : NameSupply), WellSpaced (c.pieces keepsScope supply).1
  | ⟨cases, fallback, columns⟩, supply => by
      -- from the last arm backwards: every arm leads on to what stands behind it
      have hguard := Choice.leadsOn_guardPieces keepsScope supply.next
      have harms := Choice.leadsOn_casePieces hguard cases supply.advance 0
      have hlast := Statement.wellSpaced_armPieces (hguard cases.length) fallback
        (Choice.casePieces (Choice.guardPieces keepsScope supply.next) supply.advance 0 cases).2
      have hreturn : WellSpaced (.closeBody :: .lineBreak :: Choice.returnPieces columns) :=
        .closed rfl (.closed rfl (Choice.wellSpaced_returnPieces columns))
      have hselector :=
        Choice.wellSpaced_selectorPieces keepsScope supply.next (cases.map Prod.fst)
      have hbody := (harms _ hlast).append hreturn rfl
      have hcall := WellSpaced.closed (p := .lineBreak) rfl (.closed (p := .openBody) rfl hbody)
      have hall := hselector.append hcall rfl
      simpa [Choice.pieces] using hall

/-- Each arm ends in the words that join it to the next one. -/
theorem Choice.leadsOn_casePieces {guard : Nat → List Piece}
    (hguard : ∀ n, Piece.LeadsOn (guard n)) :
    ∀ (cases : List (Expr × Statement)) (supply : NameSupply) (number : Nat),
      Piece.LeadsOn (Choice.casePieces guard supply number cases).1
  | [], _, _ => fun _ hrest => hrest
  | (_, arm) :: others, supply, number => fun rest hrest => by
      have harm := Statement.wellSpaced_armPieces (hguard number) arm supply
      have hothers := Choice.leadsOn_casePieces hguard others
        (arm.armPieces (guard number) supply).2 (number + 1) rest hrest
      have hjoin := UnionMode.all.leadsOn_pieces _ hothers
      rw [Choice.casePieces, List.append_assoc, List.append_assoc]
      exact harm.append hjoin rfl

theorem Statement.wellSpaced_armPieces {guard : List Piece} (hguard : Piece.LeadsOn guard) :
    ∀ (s : Statement) (supply : NameSupply), WellSpaced (s.armPieces guard supply).1
  | ⟨first, more, union⟩, supply => by
      have hfirst := Query.wellSpaced_pieces first supply
      have hmore := Query.wellSpaced_joinedPieces (union.leadsOn_pieces.append hguard)
        (fun _ => rfl) more (first.pieces supply).2
      rw [Statement.armPieces, List.append_assoc]
      exact hguard _ (hfirst.append hmore.1 hmore.2)

theorem Query.wellSpaced_pieces :
    ∀ (q : Query) (supply : NameSupply), WellSpaced (q.pieces supply).1
  | ⟨[]⟩, _ => trivial
  | ⟨first :: rest⟩, supply => by
      have hfirst := Clause.wellSpaced_pieces false first supply
      have hrest := Clause.wellSpaced_laterPieces rest (first.pieces false supply).2
      exact hfirst.append hrest.1 hrest.2

theorem Clause.wellSpaced_laterPieces : ∀ (cs : List Clause) (supply : NameSupply),
    WellSpaced (Clause.laterPieces supply cs).1 ∧
      startsApart (Clause.laterPieces supply cs).1 = true
  | [], _ => ⟨trivial, rfl⟩
  | clause :: rest, supply => by
      have hclause := Clause.wellSpaced_pieces true clause supply
      have hrest := Clause.wellSpaced_laterPieces rest (clause.pieces true supply).2
      exact ⟨WellSpaced.closed (p := .lineBreak) rfl (hclause.append hrest.1 hrest.2), rfl⟩

theorem Query.wellSpaced_joinedPieces {joint : List Piece} (hjoint : Piece.LeadsOn joint)
    (hs : ∀ ys, startsApart (joint ++ ys) = true) : ∀ (qs : List Query) (supply : NameSupply),
    WellSpaced (Query.joinedPieces joint supply qs).1 ∧
      startsApart (Query.joinedPieces joint supply qs).1 = true
  | [], _ => ⟨trivial, rfl⟩
  | query :: rest, supply => by
      have hquery := Query.wellSpaced_pieces query supply
      have hrest := Query.wellSpaced_joinedPieces hjoint hs rest (query.pieces supply).2
      rw [Query.joinedPieces, List.append_assoc]
      exact ⟨hjoint _ (hquery.append hrest.1 hrest.2), hs _⟩

theorem Statement.wellSpaced_pieces :
    ∀ (s : Statement) (supply : NameSupply), WellSpaced (s.pieces supply).1
  | ⟨first, more, union⟩, supply => by
      have hfirst := Query.wellSpaced_pieces first supply
      have hmore := Query.wellSpaced_joinedPieces union.leadsOn_pieces (fun _ => rfl) more
        (first.pieces supply).2
      exact hfirst.append hmore.1 hmore.2

end

mutual

/-- The text of a clause shows its placeholders. -/
theorem Clause.placeholders_pieces (keepsScope : Bool) : ∀ (c : Clause) (supply : NameSupply),
    Piece.placeholders (c.pieces keepsScope supply).1 = c.placeholders
  | .matching optional first more filter, _ => by
      have hpaths := Piece.placeholders_commaMap Path.pieces (first :: more)
      simp only [Path.placeholders_pieces] at hpaths
      simp [Clause.pieces, Clause.placeholders, ← hpaths, placeholders_filterPieces]
  | .passing projection filter, _ => by
      simp [Clause.pieces, Clause.placeholders, Projection.placeholders_pieces,
        placeholders_filterPieces]
  | .unwind list element, _ => by
      simp [Clause.pieces, Clause.placeholders, Expr.placeholders_pieces]
  | .create path, _ => by simp [Clause.pieces, Clause.placeholders, Path.placeholders_pieces]
  | .setKey var key value, _ => by
      simp [Clause.pieces, Clause.placeholders, Expr.placeholders_pieces]
  | .delete detach subject, _ => by
      simp [Clause.pieces, Clause.placeholders, Expr.placeholders_pieces]
  | .returning projection, _ => by
      simp [Clause.pieces, Clause.placeholders, Projection.placeholders_pieces]
  | .orderBy items, _ => by
      simp [Clause.pieces, Clause.placeholders, Piece.placeholders_commaMap,
        SortKey.placeholders_pieces]
  | .skip count, _ => by simp [Clause.pieces, Clause.placeholders, Expr.placeholders_pieces]
  | .limit count, _ => by simp [Clause.pieces, Clause.placeholders, Expr.placeholders_pieces]
  | .subquery body, supply => by
      have hbody := Statement.placeholders_pieces body supply
      simp [Clause.pieces, Clause.placeholders, hbody]
  | .choice arms, supply => by
      have harms := Choice.placeholders_pieces keepsScope arms supply
      rw [Clause.pieces, Clause.placeholders, harms]

theorem Choice.placeholders_pieces (keepsScope : Bool) : ∀ (c : Choice) (supply : NameSupply),
    Piece.placeholders (c.pieces keepsScope supply).1 = c.placeholders
  | ⟨cases, fallback, columns⟩, supply => by
      have hguard := Choice.placeholders_guardPieces keepsScope supply.next
      have harms := Choice.placeholders_casePieces hguard cases supply.advance 0
      have hlast := Statement.placeholders_armPieces (hguard cases.length) fallback
        (Choice.casePieces (Choice.guardPieces keepsScope supply.next) supply.advance 0 cases).2
      simp [Choice.pieces, Choice.placeholders, Choice.placeholders_selectorPieces,
        Choice.placeholders_returnPieces, harms, hlast]

theorem Choice.placeholders_casePieces {guard : Nat → List Piece}
    (hguard : ∀ n, Piece.placeholders (guard n) = []) :
    ∀ (cases : List (Expr × Statement)) (supply : NameSupply) (number : Nat),
      Piece.placeholders (Choice.casePieces guard supply number cases).1 =
        Choice.armPlaceholders cases
  | [], _, _ => rfl
  | (_, arm) :: others, supply, number => by
      have harm := Statement.placeholders_armPieces (hguard number) arm supply
      have hothers := Choice.placeholders_casePieces hguard others
        (arm.armPieces (guard number) supply).2 (number + 1)
      simp [Choice.casePieces, Choice.armPlaceholders, harm, hothers,
        UnionMode.placeholders_pieces]

theorem Statement.placeholders_armPieces {guard : List Piece}
    (hguard : Piece.placeholders guard = []) : ∀ (s : Statement) (supply : NameSupply),
    Piece.placeholders (s.armPieces guard supply).1 = s.placeholders
  | ⟨first, more, union⟩, supply => by
      have hfirst := Query.placeholders_pieces first supply
      have hjoint : Piece.placeholders (union.pieces ++ guard) = [] := by
        rw [Piece.placeholders_append, union.placeholders_pieces, hguard]
        rfl
      have hmore := Query.placeholders_joinedPieces hjoint more (first.pieces supply).2
      simp [Statement.armPieces, Statement.placeholders, hguard, hfirst, hmore]

theorem Query.placeholders_pieces : ∀ (q : Query) (supply : NameSupply),
    Piece.placeholders (q.pieces supply).1 = q.placeholders
  | ⟨[]⟩, _ => rfl
  | ⟨first :: rest⟩, supply => by
      have hfirst := Clause.placeholders_pieces false first supply
      have hrest := Clause.placeholders_laterPieces rest (first.pieces false supply).2
      simp [Query.pieces, Query.placeholders, Clause.listPlaceholders, hfirst, hrest]

theorem Clause.placeholders_laterPieces : ∀ (cs : List Clause) (supply : NameSupply),
    Piece.placeholders (Clause.laterPieces supply cs).1 = Clause.listPlaceholders cs
  | [], _ => rfl
  | clause :: rest, supply => by
      have hclause := Clause.placeholders_pieces true clause supply
      have hrest := Clause.placeholders_laterPieces rest (clause.pieces true supply).2
      simp [Clause.laterPieces, Clause.listPlaceholders, hclause, hrest]

theorem Query.placeholders_joinedPieces {joint : List Piece}
    (hjoint : Piece.placeholders joint = []) : ∀ (qs : List Query) (supply : NameSupply),
    Piece.placeholders (Query.joinedPieces joint supply qs).1 = Query.listPlaceholders qs
  | [], _ => rfl
  | query :: rest, supply => by
      have hquery := Query.placeholders_pieces query supply
      have hrest := Query.placeholders_joinedPieces hjoint rest (query.pieces supply).2
      simp [Query.joinedPieces, Query.listPlaceholders, hjoint, hquery, hrest]

theorem Statement.placeholders_pieces : ∀ (s : Statement) (supply : NameSupply),
    Piece.placeholders (s.pieces supply).1 = s.placeholders
  | ⟨first, more, union⟩, supply => by
      have hfirst := Query.placeholders_pieces first supply
      have hmore := Query.placeholders_joinedPieces union.placeholders_pieces more
        (first.pieces supply).2
      simp [Statement.pieces, Statement.placeholders, hfirst, hmore]

end

end GraphQuery
