import GraphQuery.Proofs.Rendering.Edited

/-!
# Renaming as an edit

Replacing the placeholders of a part is an edit that leaves the contents of quotes alone.
What the edit does to selectors does not matter, because the syntax has none: they come
into a text only when it is rendered.

Main statement: `Fragment.mapPlaceholders_eq_edit`.
-/

set_option autoImplicit false

namespace GraphQuery

variable (f : Placeholder → Placeholder) (g : Identifier → Identifier)

namespace Expr

mutual

theorem mapPlaceholders_eq_edit : ∀ e : Expr, e.mapPlaceholders f = e.edit (.ofNames f g)
  | .literal value => by cases value <;> rfl
  | .name var => rfl
  | .placeholder p => rfl
  | .call function first rest => by
      rw [mapPlaceholders, mapPlaceholders_eq_edit first, mapList_eq_editList rest]
      rfl
  | .map entries => congrArg Expr.map (mapEntries_eq_editEntries entries)
  | .list items => congrArg Expr.list (mapList_eq_editList items)
  | .property subject key => congrArg (Expr.property · key) (mapPlaceholders_eq_edit subject)
  | .index subject position => by
      rw [mapPlaceholders, mapPlaceholders_eq_edit subject, mapPlaceholders_eq_edit position, edit]
  | .sliceFrom subject low => by
      rw [mapPlaceholders, mapPlaceholders_eq_edit subject, mapPlaceholders_eq_edit low, edit]
  | .sliceTo subject high => by
      rw [mapPlaceholders, mapPlaceholders_eq_edit subject, mapPlaceholders_eq_edit high, edit]
  | .slice subject low high => by
      rw [mapPlaceholders, mapPlaceholders_eq_edit subject, mapPlaceholders_eq_edit low,
        mapPlaceholders_eq_edit high, edit]
  | .unary op operand => congrArg (Expr.unary op) (mapPlaceholders_eq_edit operand)
  | .binary op left right => by
      rw [mapPlaceholders, mapPlaceholders_eq_edit left, mapPlaceholders_eq_edit right, edit]
  | .case condition result more fallback => by
      rw [mapPlaceholders, mapPlaceholders_eq_edit condition, mapPlaceholders_eq_edit result,
        mapArms_eq_editArms more, mapFallback_eq_editFallback fallback, edit]

theorem mapList_eq_editList : ∀ es : List Expr, mapList f es = editList (.ofNames f g) es
  | [] => rfl
  | e :: rest => by
      rw [mapList, mapPlaceholders_eq_edit e, mapList_eq_editList rest, editList]

theorem mapEntries_eq_editEntries : ∀ es : List (String × Expr),
    mapEntries f es = editEntries (.ofNames f g) es
  | [] => rfl
  | (key, e) :: rest => by
      rw [mapEntries, mapPlaceholders_eq_edit e, mapEntries_eq_editEntries rest]
      rfl

theorem mapArms_eq_editArms : ∀ arms : List (Expr × Expr),
    mapArms f arms = editArms (.ofNames f g) arms
  | [] => rfl
  | (condition, result) :: rest => by
      rw [mapArms, mapPlaceholders_eq_edit condition, mapPlaceholders_eq_edit result,
        mapArms_eq_editArms rest, editArms]

theorem mapFallback_eq_editFallback : ∀ e : Option Expr,
    mapFallback f e = editFallback (.ofNames f g) e
  | none => rfl
  | some e => congrArg some (mapPlaceholders_eq_edit e)

end

end Expr

section Patterns

theorem NodePattern.mapPlaceholders_eq_edit (n : NodePattern) :
    n.mapPlaceholders f = n.edit (.ofNames f g) := by
  obtain ⟨var, labels, properties⟩ := n
  show NodePattern.mk var labels (Expr.mapEntries f properties) =
    ⟨var, labels.map id, Expr.editEntries (.ofNames f g) properties⟩
  rw [List.map_id, Expr.mapEntries_eq_editEntries]

theorem RelationshipPattern.mapPlaceholders_eq_edit (r : RelationshipPattern) :
    r.mapPlaceholders f = r.edit (.ofNames f g) := by
  obtain ⟨direction, var, types, length, properties⟩ := r
  show RelationshipPattern.mk direction var types length (Expr.mapEntries f properties) =
    ⟨direction, var, types.map id, length, Expr.editEntries (.ofNames f g) properties⟩
  rw [List.map_id, Expr.mapEntries_eq_editEntries]

/-- Replacing the placeholders of a path is an edit. -/
theorem Path.mapPlaceholders_eq_edit (p : Path) :
    p.mapPlaceholders f = p.edit (.ofNames f g) := by
  unfold Path.mapPlaceholders Path.edit
  rw [NodePattern.mapPlaceholders_eq_edit f g]
  simp only [NodePattern.mapPlaceholders_eq_edit f g,
    RelationshipPattern.mapPlaceholders_eq_edit f g]

theorem Column.mapPlaceholders_eq_edit (item : Column) :
    item.mapPlaceholders f = item.edit (.ofNames f g) :=
  congrArg (Column.mk · item.alias?) (item.expr.mapPlaceholders_eq_edit f g)

theorem Selection.mapPlaceholders_eq_edit (s : Selection) :
    s.mapPlaceholders f = s.edit (.ofNames f g) := by
  have hcolumn : Column.mapPlaceholders f = Column.edit (.ofNames f g) :=
    funext (Column.mapPlaceholders_eq_edit f g)
  cases s with
  | everything more => rw [Selection.mapPlaceholders, hcolumn, Selection.edit]
  | items first more => rw [Selection.mapPlaceholders, hcolumn, Selection.edit]

theorem Projection.mapPlaceholders_eq_edit (p : Projection) :
    p.mapPlaceholders f = p.edit (.ofNames f g) :=
  congrArg (Projection.mk p.distinct) (p.selection.mapPlaceholders_eq_edit f g)

theorem SortKey.mapPlaceholders_eq_edit (item : SortKey) :
    item.mapPlaceholders f = item.edit (.ofNames f g) :=
  congrArg (SortKey.mk · item.descending) (item.expr.mapPlaceholders_eq_edit f g)

end Patterns

mutual

/-- Replacing the placeholders of a clause is an edit. -/
theorem Clause.mapPlaceholders_eq_edit : ∀ c : Clause,
    c.mapPlaceholders f = c.edit (.ofNames f g)
  | .matching optional first more filter => by
      have hpath : Path.mapPlaceholders f = Path.edit (.ofNames f g) :=
        funext (Path.mapPlaceholders_eq_edit f g)
      rw [Clause.mapPlaceholders, hpath, Expr.mapFallback_eq_editFallback f g, Clause.edit]
  | .passing projection filter => by
      rw [Clause.mapPlaceholders, projection.mapPlaceholders_eq_edit f g,
        Expr.mapFallback_eq_editFallback f g, Clause.edit]
  | .unwind list element => congrArg (Clause.unwind · element) (list.mapPlaceholders_eq_edit f g)
  | .create path => congrArg Clause.create (path.mapPlaceholders_eq_edit f g)
  | .setKey var key value => congrArg (Clause.setKey var key) (value.mapPlaceholders_eq_edit f g)
  | .delete detach subject => congrArg (Clause.delete detach) (subject.mapPlaceholders_eq_edit f g)
  | .returning projection => congrArg Clause.returning (projection.mapPlaceholders_eq_edit f g)
  | .orderBy items => by
      have hkey : SortKey.mapPlaceholders f = SortKey.edit (.ofNames f g) :=
        funext (SortKey.mapPlaceholders_eq_edit f g)
      rw [Clause.mapPlaceholders, hkey, Clause.edit]
  | .skip count => congrArg Clause.skip (count.mapPlaceholders_eq_edit f g)
  | .limit count => congrArg Clause.limit (count.mapPlaceholders_eq_edit f g)
  | .subquery body => congrArg Clause.subquery (Statement.mapPlaceholders_eq_edit body)
  | .choice arms => congrArg Clause.choice (Choice.mapPlaceholders_eq_edit arms)

theorem Choice.mapPlaceholders_eq_edit : ∀ c : Choice,
    c.mapPlaceholders f = c.edit (.ofNames f g)
  | ⟨cases, fallback, columns⟩ => by
      rw [Choice.mapPlaceholders, Choice.mapCases_eq_editCases cases,
        Statement.mapPlaceholders_eq_edit fallback, Choice.edit]

theorem Choice.mapCases_eq_editCases : ∀ cases : List (Expr × Statement),
    Choice.mapCases f cases = Choice.editCases (.ofNames f g) cases
  | [] => rfl
  | (condition, arm) :: rest => by
      rw [Choice.mapCases, condition.mapPlaceholders_eq_edit f g,
        Statement.mapPlaceholders_eq_edit arm, Choice.mapCases_eq_editCases rest,
        Choice.editCases]

theorem Query.mapPlaceholders_eq_edit : ∀ q : Query,
    q.mapPlaceholders f = q.edit (.ofNames f g)
  | ⟨clauses⟩ => congrArg Query.mk (Clause.mapList_eq_editList clauses)

theorem Clause.mapList_eq_editList : ∀ cs : List Clause,
    Clause.mapList f cs = Clause.editList (.ofNames f g) cs
  | [] => rfl
  | clause :: rest => by
      rw [Clause.mapList, Clause.mapPlaceholders_eq_edit clause, Clause.mapList_eq_editList rest,
        Clause.editList]

theorem Query.mapList_eq_editList : ∀ qs : List Query,
    Query.mapList f qs = Query.editList (.ofNames f g) qs
  | [] => rfl
  | query :: rest => by
      rw [Query.mapList, Query.mapPlaceholders_eq_edit query, Query.mapList_eq_editList rest,
        Query.editList]

/-- Replacing the placeholders of a statement is an edit. -/
theorem Statement.mapPlaceholders_eq_edit : ∀ s : Statement,
    s.mapPlaceholders f = s.edit (.ofNames f g)
  | ⟨first, more, union⟩ => by
      rw [Statement.mapPlaceholders, Query.mapPlaceholders_eq_edit first,
        Query.mapList_eq_editList more, Statement.edit]

end

/-- Replacing the placeholders of a fragment is an edit, whatever it does to selectors. -/
theorem Fragment.mapPlaceholders_eq_edit (a : Fragment) :
    a.mapPlaceholders f = a.edit (.ofNames f g) := by
  cases a with
  | expr e => exact congrArg Fragment.expr (e.mapPlaceholders_eq_edit f g)
  | node n => exact congrArg Fragment.node (n.mapPlaceholders_eq_edit f g)
  | relationship r => exact congrArg Fragment.relationship (r.mapPlaceholders_eq_edit f g)
  | length l => rfl
  | path p => exact congrArg Fragment.path (p.mapPlaceholders_eq_edit f g)
  | projection p => exact congrArg Fragment.projection (p.mapPlaceholders_eq_edit f g)
  | clause c => exact congrArg Fragment.clause (c.mapPlaceholders_eq_edit f g)
  | query q => exact congrArg Fragment.query (q.mapPlaceholders_eq_edit f g)
  | statement s => exact congrArg Fragment.statement (s.mapPlaceholders_eq_edit f g)

end GraphQuery
