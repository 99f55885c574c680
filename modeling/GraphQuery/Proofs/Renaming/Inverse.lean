import GraphQuery.Proofs.Merging.Claims
import GraphQuery.Proofs.Merging.Tables
import GraphQuery.Proofs.Renaming.Text

/-!
# Renaming back and forth

A renaming replaces all placeholders at once, so swapped names do not run into each other.
One that keeps the names of a fragment apart is taken back by its inverse on these names.

Main statement: `Fragment.render_rename`.
-/

set_option autoImplicit false

namespace GraphQuery

/-- The replacement `f` takes back what `g` does to the given placeholders. -/
def Undoes (f g : Placeholder → Placeholder) (ps : List Placeholder) : Prop :=
  ∀ p ∈ ps, f (g p) = p

variable {f g : Placeholder → Placeholder}

theorem Undoes.left {xs ys : List Placeholder} (h : Undoes f g (xs ++ ys)) : Undoes f g xs :=
  fun p hp => h p (List.mem_append_left ys hp)

theorem Undoes.right {xs ys : List Placeholder} (h : Undoes f g (xs ++ ys)) : Undoes f g ys :=
  fun p hp => h p (List.mem_append_right xs hp)

/-- Replacements in the items of a list are undone item by item. -/
theorem Undoes.map {α : Type} {change back : α → α} {placeholders : α → List Placeholder}
    (hitem : ∀ a, Undoes f g (placeholders a) → back (change a) = a) {items : List α}
    (h : Undoes f g (items.flatMap placeholders)) : (items.map change).map back = items := by
  have hitems : items.map (back ∘ change) = items.map id := List.map_congr_left fun a ha =>
    hitem a fun p hp => h p (List.mem_flatMap.2 ⟨a, ha, hp⟩)
  rw [List.map_map, hitems, List.map_id]

namespace Expr

mutual

/-- A renaming is undone in an expression if it is on its placeholders. -/
theorem mapPlaceholders_undo : ∀ e : Expr, Undoes f g e.placeholders →
    (e.mapPlaceholders g).mapPlaceholders f = e
  | .literal value, _ => rfl
  | .name var, _ => rfl
  | .placeholder p, h => congrArg Expr.placeholder (h p List.mem_cons_self)
  | .call function first rest, h => by
      rw [mapPlaceholders, mapPlaceholders, mapPlaceholders_undo first h.left,
        mapList_undo rest h.right]
  | .map entries, h => congrArg Expr.map (mapEntries_undo entries h)
  | .list items, h => congrArg Expr.list (mapList_undo items h)
  | .property subject key, h => congrArg (Expr.property · key) (mapPlaceholders_undo subject h)
  | .index subject position, h => by
      rw [mapPlaceholders, mapPlaceholders, mapPlaceholders_undo subject h.left,
        mapPlaceholders_undo position h.right]
  | .sliceFrom subject low, h => by
      rw [mapPlaceholders, mapPlaceholders, mapPlaceholders_undo subject h.left,
        mapPlaceholders_undo low h.right]
  | .sliceTo subject high, h => by
      rw [mapPlaceholders, mapPlaceholders, mapPlaceholders_undo subject h.left,
        mapPlaceholders_undo high h.right]
  | .slice subject low high, h => by
      rw [mapPlaceholders, mapPlaceholders, mapPlaceholders_undo subject h.left.left,
        mapPlaceholders_undo low h.left.right, mapPlaceholders_undo high h.right]
  | .unary op operand, h => congrArg (Expr.unary op) (mapPlaceholders_undo operand h)
  | .binary op left right, h => by
      rw [mapPlaceholders, mapPlaceholders, mapPlaceholders_undo left h.left,
        mapPlaceholders_undo right h.right]
  | .case condition result more fallback, h => by
      rw [mapPlaceholders, mapPlaceholders, mapPlaceholders_undo condition h.left.left.left,
        mapPlaceholders_undo result h.left.left.right, mapArms_undo more h.left.right,
        mapFallback_undo fallback h.right]

theorem mapList_undo : ∀ es : List Expr, Undoes f g (listPlaceholders es) →
    mapList f (mapList g es) = es
  | [], _ => rfl
  | e :: rest, h => by
      rw [mapList, mapList, mapPlaceholders_undo e h.left, mapList_undo rest h.right]

theorem mapEntries_undo : ∀ es : List (String × Expr), Undoes f g (entryPlaceholders es) →
    mapEntries f (mapEntries g es) = es
  | [], _ => rfl
  | (key, e) :: rest, h => by
      rw [mapEntries, mapEntries, mapPlaceholders_undo e h.left, mapEntries_undo rest h.right]

theorem mapArms_undo : ∀ arms : List (Expr × Expr), Undoes f g (armPlaceholders arms) →
    mapArms f (mapArms g arms) = arms
  | [], _ => rfl
  | (condition, result) :: rest, h => by
      rw [mapArms, mapArms, mapPlaceholders_undo condition h.left.left,
        mapPlaceholders_undo result h.left.right, mapArms_undo rest h.right]

theorem mapFallback_undo : ∀ e : Option Expr, Undoes f g (fallbackPlaceholders e) →
    mapFallback f (mapFallback g e) = e
  | none, _ => rfl
  | some e, h => congrArg some (mapPlaceholders_undo e h)

end

end Expr

/-! ## Patterns and projections -/

theorem NodePattern.mapPlaceholders_undo (n : NodePattern) (h : Undoes f g n.placeholders) :
    (n.mapPlaceholders g).mapPlaceholders f = n :=
  congrArg (NodePattern.mk n.var n.labels) (Expr.mapEntries_undo n.properties h)

theorem RelationshipPattern.mapPlaceholders_undo (r : RelationshipPattern)
    (h : Undoes f g r.placeholders) : (r.mapPlaceholders g).mapPlaceholders f = r :=
  congrArg (RelationshipPattern.mk r.direction r.var r.types r.length)
    (Expr.mapEntries_undo r.properties h)

/-- A renaming is undone along a path. -/
theorem Path.mapPlaceholders_undo (p : Path) (h : Undoes f g p.placeholders) :
    (p.mapPlaceholders g).mapPlaceholders f = p := by
  have hstart := p.start.mapPlaceholders_undo h.left
  have hsteps : (p.mapPlaceholders g).mapPlaceholders f = ⟨_, p.steps⟩ :=
    congrArg (Path.mk _) (Undoes.map (fun (relationship, node) hstep => Prod.ext
      (relationship.mapPlaceholders_undo hstep.left) (node.mapPlaceholders_undo hstep.right))
        h.right)
  rw [hsteps]
  exact congrArg (Path.mk · p.steps) hstart

theorem Column.mapPlaceholders_undo (item : Column) (h : Undoes f g item.expr.placeholders) :
    (item.mapPlaceholders g).mapPlaceholders f = item :=
  congrArg (Column.mk · item.alias?) (item.expr.mapPlaceholders_undo h)

theorem SortKey.mapPlaceholders_undo (item : SortKey) (h : Undoes f g item.expr.placeholders) :
    (item.mapPlaceholders g).mapPlaceholders f = item :=
  congrArg (SortKey.mk · item.descending) (item.expr.mapPlaceholders_undo h)

theorem Projection.mapPlaceholders_undo (p : Projection) (h : Undoes f g p.placeholders) :
    (p.mapPlaceholders g).mapPlaceholders f = p := by
  obtain ⟨distinct, selection⟩ := p
  refine congrArg (Projection.mk distinct) ?_
  cases selection with
  | everything more =>
      exact congrArg Selection.everything (Undoes.map Column.mapPlaceholders_undo h)
  | items first more =>
      have hfirst := first.mapPlaceholders_undo h.left
      have hmore := Undoes.map Column.mapPlaceholders_undo h.right
      exact (congrArg (Selection.items · _) hfirst).trans (congrArg (Selection.items first) hmore)

/-! ## Statements -/

mutual

/-- A renaming is undone in a clause if it is on its placeholders. -/
theorem Clause.mapPlaceholders_undo : ∀ c : Clause, Undoes f g c.placeholders →
    (c.mapPlaceholders g).mapPlaceholders f = c
  | .matching optional first more filter, h => by
      have hpaths : (more.map _).map _ = more := Undoes.map Path.mapPlaceholders_undo h.left.right
      rw [Clause.mapPlaceholders, Clause.mapPlaceholders, first.mapPlaceholders_undo h.left.left,
        hpaths, Expr.mapFallback_undo filter h.right]
  | .passing projection filter, h => by
      rw [Clause.mapPlaceholders, Clause.mapPlaceholders, projection.mapPlaceholders_undo h.left,
        Expr.mapFallback_undo filter h.right]
  | .unwind list element, h => congrArg (Clause.unwind · element) (list.mapPlaceholders_undo h)
  | .create path, h => congrArg Clause.create (path.mapPlaceholders_undo h)
  | .setKey var key value, h => congrArg (Clause.setKey var key) (value.mapPlaceholders_undo h)
  | .delete detach subject, h => congrArg (Clause.delete detach) (subject.mapPlaceholders_undo h)
  | .returning projection, h => congrArg Clause.returning (projection.mapPlaceholders_undo h)
  | .orderBy items, h => congrArg Clause.orderBy (Undoes.map SortKey.mapPlaceholders_undo h)
  | .skip count, h => congrArg Clause.skip (count.mapPlaceholders_undo h)
  | .limit count, h => congrArg Clause.limit (count.mapPlaceholders_undo h)
  | .subquery body, h => congrArg Clause.subquery (Statement.mapPlaceholders_undo body h)
  | .choice arms, h => congrArg Clause.choice (Choice.mapPlaceholders_undo arms h)

theorem Choice.mapPlaceholders_undo : ∀ c : Choice, Undoes f g c.placeholders →
    (c.mapPlaceholders g).mapPlaceholders f = c
  | ⟨cases, fallback, columns⟩, h => by
      rw [Choice.mapPlaceholders, Choice.mapPlaceholders,
        Choice.mapCases_undo cases h.left.left h.left.right,
        Statement.mapPlaceholders_undo fallback h.right]

/-- The placeholders of the conditions stand apart from those of the arms. -/
theorem Choice.mapCases_undo : ∀ cases : List (Expr × Statement),
    Undoes f g ((cases.map Prod.fst).flatMap Expr.placeholders) →
      Undoes f g (Choice.armPlaceholders cases) →
        Choice.mapCases f (Choice.mapCases g cases) = cases
  | [], _, _ => rfl
  | (condition, arm) :: rest, hconditions, harms => by
      rw [Choice.mapCases, Choice.mapCases, condition.mapPlaceholders_undo hconditions.left,
        Statement.mapPlaceholders_undo arm harms.left,
        Choice.mapCases_undo rest hconditions.right harms.right]

theorem Query.mapPlaceholders_undo : ∀ q : Query, Undoes f g q.placeholders →
    (q.mapPlaceholders g).mapPlaceholders f = q
  | ⟨clauses⟩, h => congrArg Query.mk (Clause.mapList_undo clauses h)

theorem Clause.mapList_undo : ∀ cs : List Clause, Undoes f g (Clause.listPlaceholders cs) →
    Clause.mapList f (Clause.mapList g cs) = cs
  | [], _ => rfl
  | clause :: rest, h => by
      rw [Clause.mapList, Clause.mapList, Clause.mapPlaceholders_undo clause h.left,
        Clause.mapList_undo rest h.right]

theorem Query.mapList_undo : ∀ qs : List Query, Undoes f g (Query.listPlaceholders qs) →
    Query.mapList f (Query.mapList g qs) = qs
  | [], _ => rfl
  | query :: rest, h => by
      rw [Query.mapList, Query.mapList, Query.mapPlaceholders_undo query h.left,
        Query.mapList_undo rest h.right]

/-- A renaming is undone in a statement, at every level. -/
theorem Statement.mapPlaceholders_undo : ∀ s : Statement, Undoes f g s.placeholders →
    (s.mapPlaceholders g).mapPlaceholders f = s
  | ⟨first, more, union⟩, h => by
      rw [Statement.mapPlaceholders, Statement.mapPlaceholders,
        Query.mapPlaceholders_undo first h.left, Query.mapList_undo more h.right]

end

/-! ## Fragments -/

/-- Edited pieces have the edited placeholders. -/
theorem Piece.placeholders_map_edit (φ : Edit) (ps : List Piece) :
    placeholders (ps.map (edit φ)) = (placeholders ps).map φ.placeholder := by
  induction ps with
  | nil => rfl
  | cons p rest ih =>
      rw [List.map_cons, placeholders_cons, placeholders_cons, ih, List.map_append]
      cases p <;> rfl

namespace Renaming

/-- The renaming that takes `r` back on the given names. -/
def inverseOn (r : Renaming) (names : List Identifier) : Renaming :=
  Table.ofList (names.map fun name => ((r.apply name).text, name))

variable {r : Renaming} {names : List Identifier}

/-- Names that `r` keeps apart get back what they were. -/
theorem apply_inverseOn (hnames : names.Nodup)
    (hinjective : ∀ x ∈ names, ∀ y ∈ names, r.apply x = r.apply y → x = y) :
    ∀ name ∈ names, (r.inverseOn names).apply (r.apply name) = name := by
  intro name hname
  -- new names that fall together would leave one entry of the inverse
  have hkeys : (Entries.keys (names.map fun name => ((r.apply name).text, name))).Nodup := by
    rw [Entries.keys, List.map_map]
    exact hnames.map_on fun x hx y hy h => hinjective x hx y hy (Identifier.ext_text h)
  refine apply_of_get? (Table.get?_eq_some_iff.2 ?_)
  rw [inverseOn, Table.entries_ofList hkeys]
  exact List.mem_map_of_mem hname

end Renaming

namespace Fragment

theorem mapPlaceholders_undo (a : Fragment) (h : Undoes f g a.placeholders) :
    (a.mapPlaceholders g).mapPlaceholders f = a := by
  cases a with
  | expr e => exact congrArg Fragment.expr (e.mapPlaceholders_undo h)
  | node n => exact congrArg Fragment.node (n.mapPlaceholders_undo h)
  | relationship r => exact congrArg Fragment.relationship (r.mapPlaceholders_undo h)
  | length l => rfl
  | path p => exact congrArg Fragment.path (p.mapPlaceholders_undo h)
  | projection p => exact congrArg Fragment.projection (p.mapPlaceholders_undo h)
  | clause c => exact congrArg Fragment.clause (c.mapPlaceholders_undo h)
  | query q => exact congrArg Fragment.query (q.mapPlaceholders_undo h)
  | statement s => exact congrArg Fragment.statement (s.mapPlaceholders_undo h)

/-- Rendering a renamed fragment renames the parameters in the text of the fragment, all at
once, and its recorded placeholders. Names that fall together are recorded once. If none do,
the fragment can be had back. -/
theorem render_rename (a : Fragment) (r : Renaming) :
    (∀ layout supply,
      let renamed := (r.rename a).render layout supply
      let original := a.render layout supply
      renamed.1.text = Text.renameParameters r.applyText original.1.text ∧
      renamed.1.uses = (original.1.uses.map r.applyTo).eraseDups ∧
      renamed.2 = original.2) ∧
    ((∀ x ∈ placeholderNames a.placeholders, ∀ y ∈ placeholderNames a.placeholders,
        r.apply x = r.apply y → x = y) →
      (r.inverseOn (placeholderNames a.placeholders)).rename (r.rename a) = a) := by
  constructor
  · intro layout supply
    have hpieces := a.pieces_edit (.ofPlaceholders r.applyTo) (.refl supply a.choiceCount)
    rw [Edit.ofPlaceholders, ← a.mapPlaceholders_eq_edit] at hpieces
    have htext := a.text_mapPlaceholders r.text_applyTo layout supply supply
    rw [a.renumberedText_self] at htext
    have hsupply : ((a.mapPlaceholders r.applyTo).pieces supply).2 = (a.pieces supply).2 := by
      rw [hpieces, a.supply_pieces]
    refine ⟨htext, ?_, hsupply⟩
    show (Piece.placeholders ((a.mapPlaceholders r.applyTo).pieces supply).1).eraseDups =
      ((Piece.placeholders (a.pieces supply).1).eraseDups.map r.applyTo).eraseDups
    rw [hpieces, Piece.placeholders_map_edit, eraseDups_map_eraseDups]
    rfl
  · intro hinjective
    refine a.mapPlaceholders_undo fun p hp => ?_
    have hname : p.name ∈ placeholderNames a.placeholders :=
      List.mem_eraseDups.2 (List.mem_map_of_mem hp)
    have hback := Renaming.apply_inverseOn (nodup_eraseDups _) hinjective p.name hname
    exact congrArg (Placeholder.mk · p.kind) hback

namespace Sample

def old : Identifier := ⟨"old", by decide⟩

def new : Identifier := ⟨"new", by decide⟩

/-- A comparison of two placeholders and a string that looks like one. -/
def comparison : Fragment :=
  .expr (.binary .and (.binary .eq (.placeholder ⟨old, .string⟩) (.placeholder ⟨new, .string⟩))
    (.binary .eq (.placeholder ⟨old, .string⟩) (.literal (.string "$old"))))

/-- A renaming that swaps two names. -/
def swap : Renaming := Table.ofList [("old", new), ("new", old)]

end Sample

/-- Swapped names do not run into each other, and the string stays. -/
example : (Sample.swap.rename Sample.comparison).text = "($new = $old) AND ($new = \"$old\")" := by
  decide +kernel

/-- Swapping two names and swapping them back gives the same fragment. -/
theorem render_rename_swap :
    (Sample.swap.inverseOn (placeholderNames Sample.comparison.placeholders)).rename
      (Sample.swap.rename Sample.comparison) = Sample.comparison :=
  (render_rename Sample.comparison Sample.swap).2 (by decide +kernel)

end Fragment

end GraphQuery
