import GraphQuery.Placeholders

/-!
# Renaming placeholders

Every placeholder of a part is replaced by the same function; nothing else in the
part changes. A renaming is a table from old names to new ones, applied to all
placeholders at once, so that names may be swapped.
-/

set_option autoImplicit false

namespace GraphQuery

/-- New names by old name. -/
abbrev Renaming := Table String Identifier

namespace Renaming

/-- The new name of a name; names that the renaming lacks stay. -/
def apply (r : Renaming) (name : Identifier) : Identifier :=
  (r.get? name.text).getD name

/-- The new name of a name given as text. -/
def applyText (r : Renaming) (name : String) : String :=
  ((r.get? name).map Identifier.text).getD name

theorem applyText_text (r : Renaming) (name : Identifier) :
    r.applyText name.text = (r.apply name).text := by
  unfold applyText apply
  cases r.get? name.text with
  | none => rfl
  | some target => rfl

/-- The placeholder under its new name, at the same kind. -/
def applyTo (r : Renaming) (p : Placeholder) : Placeholder := ⟨r.apply p.name, p.kind⟩

theorem text_applyTo (r : Renaming) (p : Placeholder) :
    (r.applyTo p).name.text = r.applyText p.name.text :=
  (r.applyText_text p.name).symm

end Renaming

namespace Expr

mutual

/-- The expression with every placeholder replaced. -/
def mapPlaceholders (f : Placeholder → Placeholder) : Expr → Expr
  | .literal value => .literal value
  | .name var => .name var
  | .placeholder p => .placeholder (f p)
  | .call function first rest =>
      .call function (first.mapPlaceholders f) (mapList f rest)
  | .map entries => .map (mapEntries f entries)
  | .list items => .list (mapList f items)
  | .property subject key => .property (subject.mapPlaceholders f) key
  | .index subject position =>
      .index (subject.mapPlaceholders f) (position.mapPlaceholders f)
  | .sliceFrom subject low => .sliceFrom (subject.mapPlaceholders f) (low.mapPlaceholders f)
  | .sliceTo subject high => .sliceTo (subject.mapPlaceholders f) (high.mapPlaceholders f)
  | .slice subject low high =>
      .slice (subject.mapPlaceholders f) (low.mapPlaceholders f) (high.mapPlaceholders f)
  | .unary op operand => .unary op (operand.mapPlaceholders f)
  | .binary op left right => .binary op (left.mapPlaceholders f) (right.mapPlaceholders f)
  | .case condition result more fallback =>
      .case (condition.mapPlaceholders f) (result.mapPlaceholders f) (mapArms f more)
        (mapFallback f fallback)

/-- The expressions with every placeholder replaced. -/
def mapList (f : Placeholder → Placeholder) : List Expr → List Expr
  | [] => []
  | e :: rest => e.mapPlaceholders f :: mapList f rest

/-- The entries of a map with every placeholder replaced. -/
def mapEntries (f : Placeholder → Placeholder) : List (String × Expr) → List (String × Expr)
  | [] => []
  | (key, e) :: rest => (key, e.mapPlaceholders f) :: mapEntries f rest

/-- The arms of a conditional with every placeholder replaced. -/
def mapArms (f : Placeholder → Placeholder) : List (Expr × Expr) → List (Expr × Expr)
  | [] => []
  | (condition, result) :: rest =>
      (condition.mapPlaceholders f, result.mapPlaceholders f) :: mapArms f rest

/-- The optional expression with every placeholder replaced. -/
def mapFallback (f : Placeholder → Placeholder) : Option Expr → Option Expr
  | none => none
  | some e => some (e.mapPlaceholders f)

end

end Expr

/-- The node with every placeholder replaced. -/
def NodePattern.mapPlaceholders (f : Placeholder → Placeholder) (n : NodePattern) :
    NodePattern :=
  { n with properties := Expr.mapEntries f n.properties }

/-- The relationship with every placeholder replaced. -/
def RelationshipPattern.mapPlaceholders (f : Placeholder → Placeholder)
    (r : RelationshipPattern) : RelationshipPattern :=
  { r with properties := Expr.mapEntries f r.properties }

/-- The path with every placeholder replaced. -/
def Path.mapPlaceholders (f : Placeholder → Placeholder) (p : Path) : Path where
  start := p.start.mapPlaceholders f
  steps := p.steps.map fun (relationship, node) =>
    (relationship.mapPlaceholders f, node.mapPlaceholders f)

/-- The column with every placeholder replaced. -/
def Column.mapPlaceholders (f : Placeholder → Placeholder) (item : Column) :
    Column :=
  { item with expr := item.expr.mapPlaceholders f }

/-- The selection with every placeholder replaced. -/
def Selection.mapPlaceholders (f : Placeholder → Placeholder) : Selection → Selection
  | .everything more => .everything (more.map (Column.mapPlaceholders f))
  | .items first more =>
      .items (first.mapPlaceholders f) (more.map (Column.mapPlaceholders f))

/-- The projection with every placeholder replaced. -/
def Projection.mapPlaceholders (f : Placeholder → Placeholder) (p : Projection) :
    Projection :=
  { p with selection := p.selection.mapPlaceholders f }

/-- The sort key with every placeholder replaced. -/
def SortKey.mapPlaceholders (f : Placeholder → Placeholder) (item : SortKey) : SortKey :=
  { item with expr := item.expr.mapPlaceholders f }

mutual

/-- The clause with every placeholder replaced. -/
def Clause.mapPlaceholders (f : Placeholder → Placeholder) : Clause → Clause
  | .matching optional first more filter =>
      .matching optional (first.mapPlaceholders f) (more.map (Path.mapPlaceholders f))
        (Expr.mapFallback f filter)
  | .passing projection filter =>
      .passing (projection.mapPlaceholders f) (Expr.mapFallback f filter)
  | .unwind list element => .unwind (list.mapPlaceholders f) element
  | .create path => .create (path.mapPlaceholders f)
  | .setKey var key value => .setKey var key (value.mapPlaceholders f)
  | .delete detach subject => .delete detach (subject.mapPlaceholders f)
  | .returning projection => .returning (projection.mapPlaceholders f)
  | .orderBy items => .orderBy (items.map (SortKey.mapPlaceholders f))
  | .skip count => .skip (count.mapPlaceholders f)
  | .limit count => .limit (count.mapPlaceholders f)
  | .subquery body => .subquery (body.mapPlaceholders f)
  | .choice arms => .choice (arms.mapPlaceholders f)

/-- The conditional with every placeholder replaced. -/
def Choice.mapPlaceholders (f : Placeholder → Placeholder) : Choice → Choice
  | ⟨cases, fallback, columns⟩ =>
      ⟨Choice.mapCases f cases, fallback.mapPlaceholders f, columns⟩

/-- The cases of a conditional with every placeholder replaced. -/
def Choice.mapCases (f : Placeholder → Placeholder) :
    List (Expr × Statement) → List (Expr × Statement)
  | [] => []
  | (condition, arm) :: rest =>
      (condition.mapPlaceholders f, arm.mapPlaceholders f) :: Choice.mapCases f rest

/-- The query with every placeholder replaced. -/
def Query.mapPlaceholders (f : Placeholder → Placeholder) : Query → Query
  | ⟨clauses⟩ => ⟨Clause.mapList f clauses⟩

/-- The clauses with every placeholder replaced. -/
def Clause.mapList (f : Placeholder → Placeholder) : List Clause → List Clause
  | [] => []
  | clause :: rest => clause.mapPlaceholders f :: Clause.mapList f rest

/-- The queries with every placeholder replaced. -/
def Query.mapList (f : Placeholder → Placeholder) : List Query → List Query
  | [] => []
  | query :: rest => query.mapPlaceholders f :: Query.mapList f rest

/-- The statement with every placeholder replaced. -/
def Statement.mapPlaceholders (f : Placeholder → Placeholder) : Statement → Statement
  | ⟨first, more, union⟩ => ⟨first.mapPlaceholders f, Query.mapList f more, union⟩

end

/-- Parts of a query whose placeholders can be listed and replaced. -/
class Renameable (β : Type) where
  /-- Placeholders in order, with repetitions. -/
  placeholders : β → List Placeholder
  /-- The part with every placeholder replaced. -/
  mapPlaceholders : (Placeholder → Placeholder) → β → β

instance : Renameable Expr where
  placeholders := Expr.placeholders
  mapPlaceholders := Expr.mapPlaceholders

instance : Renameable Statement where
  placeholders := Statement.placeholders
  mapPlaceholders := Statement.mapPlaceholders

end GraphQuery
