import GraphQuery.Syntax.Statement

/-!
# Placeholders of a part of a query

The placeholders of every kind of part, listed with repetitions in the order in
which the text shows them. The lists are computed from the syntax alone, without
rendering it.
-/

set_option autoImplicit false

namespace GraphQuery

namespace Expr

mutual

/-- Placeholders of an expression. -/
def placeholders : Expr → List Placeholder
  | .literal _ => []
  | .name _ => []
  | .placeholder p => [p]
  | .call _ first rest => first.placeholders ++ listPlaceholders rest
  | .map entries => entryPlaceholders entries
  | .list items => listPlaceholders items
  | .property subject _ => subject.placeholders
  | .index subject position => subject.placeholders ++ position.placeholders
  | .sliceFrom subject low => subject.placeholders ++ low.placeholders
  | .sliceTo subject high => subject.placeholders ++ high.placeholders
  | .slice subject low high =>
      subject.placeholders ++ low.placeholders ++ high.placeholders
  | .unary _ operand => operand.placeholders
  | .binary _ left right => left.placeholders ++ right.placeholders
  | .case condition result more fallback =>
      condition.placeholders ++ result.placeholders ++ armPlaceholders more ++
        fallbackPlaceholders fallback

/-- Placeholders of several expressions. -/
def listPlaceholders : List Expr → List Placeholder
  | [] => []
  | e :: rest => e.placeholders ++ listPlaceholders rest

/-- Placeholders of entries of a map. -/
def entryPlaceholders : List (String × Expr) → List Placeholder
  | [] => []
  | (_, e) :: rest => e.placeholders ++ entryPlaceholders rest

/-- Placeholders of arms of a conditional. -/
def armPlaceholders : List (Expr × Expr) → List Placeholder
  | [] => []
  | (condition, result) :: rest =>
      condition.placeholders ++ result.placeholders ++ armPlaceholders rest

/-- Placeholders of an optional expression. -/
def fallbackPlaceholders : Option Expr → List Placeholder
  | none => []
  | some e => e.placeholders

end

end Expr

/-- Placeholders of a node. -/
def NodePattern.placeholders (n : NodePattern) : List Placeholder :=
  Expr.entryPlaceholders n.properties

/-- Placeholders of a relationship. -/
def RelationshipPattern.placeholders (r : RelationshipPattern) : List Placeholder :=
  Expr.entryPlaceholders r.properties

/-- Placeholders of a path. -/
def Path.placeholders (p : Path) : List Placeholder :=
  p.start.placeholders ++ p.steps.flatMap fun (relationship, node) =>
    relationship.placeholders ++ node.placeholders

/-- Placeholders of a projection. -/
def Projection.placeholders (p : Projection) : List Placeholder :=
  p.items.flatMap fun item => item.expr.placeholders

mutual

/-- Placeholders of a clause. -/
def Clause.placeholders : Clause → List Placeholder
  | .matching _ first more filter =>
      (first :: more).flatMap Path.placeholders ++ Expr.fallbackPlaceholders filter
  | .passing projection filter =>
      projection.placeholders ++ Expr.fallbackPlaceholders filter
  | .unwind list _ => list.placeholders
  | .create path => path.placeholders
  | .setKey _ _ value => value.placeholders
  | .delete _ subject => subject.placeholders
  | .returning projection => projection.placeholders
  | .orderBy items => items.flatMap fun item => item.expr.placeholders
  | .skip count => count.placeholders
  | .limit count => count.placeholders
  | .subquery body => body.placeholders
  | .choice arms => arms.placeholders

/-- Placeholders of a conditional: those of the conditions, then those of the
arms. -/
def Choice.placeholders : Choice → List Placeholder
  | ⟨cases, fallback, _⟩ =>
      (cases.map Prod.fst).flatMap Expr.placeholders ++ Choice.armPlaceholders cases ++
        fallback.placeholders

/-- Placeholders of the arms that have a condition. -/
def Choice.armPlaceholders : List (Expr × Statement) → List Placeholder
  | [] => []
  | (_, arm) :: rest => arm.placeholders ++ Choice.armPlaceholders rest

/-- Placeholders of a query. -/
def Query.placeholders : Query → List Placeholder
  | ⟨clauses⟩ => Clause.listPlaceholders clauses

/-- Placeholders of several clauses. -/
def Clause.listPlaceholders : List Clause → List Placeholder
  | [] => []
  | clause :: rest => clause.placeholders ++ Clause.listPlaceholders rest

/-- Placeholders of several queries. -/
def Query.listPlaceholders : List Query → List Placeholder
  | [] => []
  | query :: rest => query.placeholders ++ Query.listPlaceholders rest

/-- Placeholders of a statement. -/
def Statement.placeholders : Statement → List Placeholder
  | ⟨first, more, _⟩ => first.placeholders ++ Query.listPlaceholders more

end

/-- Names of placeholders, in the order of their first occurrence. -/
def placeholderNames (ps : List Placeholder) : List Identifier :=
  (ps.map Placeholder.name).eraseDups

end GraphQuery
