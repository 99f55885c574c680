import GraphQuery.Renaming

/-!
# Placeholders of renamed parts

Replacing the placeholders of a part replaces them in its list of placeholders, one
for one and in order. Main statements: `Expr.placeholders_mapPlaceholders` and
`Statement.placeholders_mapPlaceholders`.
-/

set_option autoImplicit false

namespace GraphQuery

/-- Parts whose list of placeholders follows the replacement of placeholders. -/
class LawfulRenameable (β : Type) [Renameable β] : Prop where
  placeholders_mapPlaceholders (f : Placeholder → Placeholder) (part : β) :
    Renameable.placeholders (Renameable.mapPlaceholders f part) =
      (Renameable.placeholders part).map f

variable (f : Placeholder → Placeholder)

namespace Expr

mutual

/-- The placeholders of an expression are replaced where they stand. -/
theorem placeholders_mapPlaceholders :
    ∀ e : Expr, (e.mapPlaceholders f).placeholders = e.placeholders.map f
  | .literal value => rfl
  | .name var => rfl
  | .placeholder p => rfl
  | .call function first rest => by
      simp [mapPlaceholders, placeholders, placeholders_mapPlaceholders first,
        placeholders_mapList rest]
  | .map entries => placeholders_mapEntries entries
  | .list items => placeholders_mapList items
  | .property subject key => placeholders_mapPlaceholders subject
  | .index subject position => by
      simp [mapPlaceholders, placeholders, placeholders_mapPlaceholders subject,
        placeholders_mapPlaceholders position]
  | .sliceFrom subject low => by
      simp [mapPlaceholders, placeholders, placeholders_mapPlaceholders subject,
        placeholders_mapPlaceholders low]
  | .sliceTo subject high => by
      simp [mapPlaceholders, placeholders, placeholders_mapPlaceholders subject,
        placeholders_mapPlaceholders high]
  | .slice subject low high => by
      simp [mapPlaceholders, placeholders, placeholders_mapPlaceholders subject,
        placeholders_mapPlaceholders low, placeholders_mapPlaceholders high]
  | .unary op operand => placeholders_mapPlaceholders operand
  | .binary op left right => by
      simp [mapPlaceholders, placeholders, placeholders_mapPlaceholders left,
        placeholders_mapPlaceholders right]
  | .case condition result more fallback => by
      simp [mapPlaceholders, placeholders, placeholders_mapPlaceholders condition,
        placeholders_mapPlaceholders result, placeholders_mapArms more,
        placeholders_mapFallback fallback]

theorem placeholders_mapList :
    ∀ es : List Expr, listPlaceholders (mapList f es) = (listPlaceholders es).map f
  | [] => rfl
  | e :: rest => by
      simp [mapList, listPlaceholders, placeholders_mapPlaceholders e, placeholders_mapList rest]

theorem placeholders_mapEntries : ∀ es : List (String × Expr),
    entryPlaceholders (mapEntries f es) = (entryPlaceholders es).map f
  | [] => rfl
  | (key, e) :: rest => by
      simp [mapEntries, entryPlaceholders, placeholders_mapPlaceholders e,
        placeholders_mapEntries rest]

theorem placeholders_mapArms : ∀ es : List (Expr × Expr),
    armPlaceholders (mapArms f es) = (armPlaceholders es).map f
  | [] => rfl
  | (condition, result) :: rest => by
      simp [mapArms, armPlaceholders, placeholders_mapPlaceholders condition,
        placeholders_mapPlaceholders result, placeholders_mapArms rest]

theorem placeholders_mapFallback : ∀ e : Option Expr,
    fallbackPlaceholders (mapFallback f e) = (fallbackPlaceholders e).map f
  | none => rfl
  | some e => placeholders_mapPlaceholders e

end

end Expr

instance : LawfulRenameable Expr := ⟨Expr.placeholders_mapPlaceholders⟩

/-- The placeholders along a path are replaced where they stand. -/
theorem Path.placeholders_mapPlaceholders (p : Path) :
    (p.mapPlaceholders f).placeholders = p.placeholders.map f := by
  simp [Path.mapPlaceholders, Path.placeholders, NodePattern.mapPlaceholders,
    NodePattern.placeholders, RelationshipPattern.mapPlaceholders,
    RelationshipPattern.placeholders, Expr.placeholders_mapEntries, List.map_flatMap,
    List.flatMap_map]

/-- So are those of a projection. -/
theorem Projection.placeholders_mapPlaceholders (p : Projection) :
    (p.mapPlaceholders f).placeholders = p.placeholders.map f := by
  have hitems : (p.mapPlaceholders f).items = p.items.map (Column.mapPlaceholders f) := by
    unfold Projection.items Projection.mapPlaceholders
    cases p.selection <;> rfl
  simp [Projection.placeholders, hitems, Column.mapPlaceholders, List.map_flatMap,
    List.flatMap_map, Expr.placeholders_mapPlaceholders]

mutual

/-- The placeholders of a clause are replaced where they stand. -/
theorem Clause.placeholders_mapPlaceholders :
    ∀ c : Clause, (c.mapPlaceholders f).placeholders = c.placeholders.map f
  | .matching optional first more filter => by
      simp [Clause.mapPlaceholders, Clause.placeholders, Path.placeholders_mapPlaceholders,
        Expr.placeholders_mapFallback, List.map_flatMap, List.flatMap_map]
  | .passing projection filter => by
      simp [Clause.mapPlaceholders, Clause.placeholders,
        Projection.placeholders_mapPlaceholders, Expr.placeholders_mapFallback]
  | .unwind list element => list.placeholders_mapPlaceholders f
  | .create path => path.placeholders_mapPlaceholders f
  | .setKey var key value => value.placeholders_mapPlaceholders f
  | .delete detach subject => subject.placeholders_mapPlaceholders f
  | .returning projection => projection.placeholders_mapPlaceholders f
  | .orderBy items => by
      simp [Clause.mapPlaceholders, Clause.placeholders, SortKey.mapPlaceholders,
        Expr.placeholders_mapPlaceholders, List.map_flatMap, List.flatMap_map]
  | .skip count => count.placeholders_mapPlaceholders f
  | .limit count => count.placeholders_mapPlaceholders f
  | .subquery body => Statement.placeholders_mapPlaceholders body
  | .choice arms => Choice.placeholders_mapPlaceholders arms

theorem Choice.placeholders_mapPlaceholders :
    ∀ c : Choice, (c.mapPlaceholders f).placeholders = c.placeholders.map f
  | ⟨cases, fallback, columns⟩ => by
      obtain ⟨hconditions, harms⟩ := Choice.placeholders_mapCases cases
      have hfallback := Statement.placeholders_mapPlaceholders fallback
      simp only [Choice.mapPlaceholders, Choice.placeholders, hconditions, harms, hfallback,
        List.map_append]

/-- In the cases of a conditional, conditions and arms are replaced alike. -/
theorem Choice.placeholders_mapCases : ∀ cases : List (Expr × Statement),
    ((Choice.mapCases f cases).map Prod.fst).flatMap Expr.placeholders =
      ((cases.map Prod.fst).flatMap Expr.placeholders).map f ∧
    Choice.armPlaceholders (Choice.mapCases f cases) = (Choice.armPlaceholders cases).map f
  | [] => ⟨rfl, rfl⟩
  | (condition, arm) :: rest => by
      obtain ⟨hconditions, harms⟩ := Choice.placeholders_mapCases rest
      have harm := Statement.placeholders_mapPlaceholders arm
      constructor
      · simp only [Choice.mapCases, List.map_cons, List.flatMap_cons, hconditions,
          condition.placeholders_mapPlaceholders f, List.map_append]
      · simp only [Choice.mapCases, Choice.armPlaceholders, harm, harms, List.map_append]

theorem Query.placeholders_mapPlaceholders :
    ∀ q : Query, (q.mapPlaceholders f).placeholders = q.placeholders.map f
  | ⟨clauses⟩ => Clause.placeholders_mapList clauses

theorem Clause.placeholders_mapList : ∀ cs : List Clause,
    Clause.listPlaceholders (Clause.mapList f cs) = (Clause.listPlaceholders cs).map f
  | [] => rfl
  | clause :: rest => by
      have hclause := Clause.placeholders_mapPlaceholders clause
      have hrest := Clause.placeholders_mapList rest
      simp only [Clause.mapList, Clause.listPlaceholders, hclause, hrest, List.map_append]

theorem Query.placeholders_mapList : ∀ qs : List Query,
    Query.listPlaceholders (Query.mapList f qs) = (Query.listPlaceholders qs).map f
  | [] => rfl
  | query :: rest => by
      have hquery := Query.placeholders_mapPlaceholders query
      have hrest := Query.placeholders_mapList rest
      simp only [Query.mapList, Query.listPlaceholders, hquery, hrest, List.map_append]

/-- The placeholders of a statement are replaced where they stand, at every level. -/
theorem Statement.placeholders_mapPlaceholders :
    ∀ s : Statement, (s.mapPlaceholders f).placeholders = s.placeholders.map f
  | ⟨first, more, union⟩ => by
      have hfirst := Query.placeholders_mapPlaceholders first
      have hmore := Query.placeholders_mapList more
      simp only [Statement.mapPlaceholders, Statement.placeholders, hfirst, hmore,
        List.map_append]

end

instance : LawfulRenameable Statement := ⟨Statement.placeholders_mapPlaceholders⟩

end GraphQuery
