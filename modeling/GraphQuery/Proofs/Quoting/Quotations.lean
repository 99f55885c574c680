import GraphQuery.Fragment
import GraphQuery.Proofs.Rendering.Statement

/-!
# Quotations of a fragment

What a user may spell freely stands in quotes: names of functions, keys, labels and types
in backticks, string literals in double quotes. The quotations of a part of a query are
listed from the syntax alone, in the order in which the text shows them.

Main statement: `Fragment.quotations_pieces`, the quoted pieces of a rendering are the
quotations of the fragment.
-/

set_option autoImplicit false

namespace GraphQuery

open Text (Quote)

/-! ## Quotations of the syntax -/

/-- Quotations of a literal. -/
def Literal.quotations : Literal → List (Quote × String)
  | .string s => [(.double, s)]
  | _ => []

namespace Expr

mutual

/-- Quotations of an expression. -/
def quotations : Expr → List (Quote × String)
  | .literal value => value.quotations
  | .name _ => []
  | .placeholder _ => []
  | .call function first rest =>
      (.backtick, function) :: first.quotations ++ listQuotations rest
  | .map entries => entryQuotations entries
  | .list items => listQuotations items
  | .property subject key => subject.quotations ++ [(.backtick, key)]
  | .index subject position => subject.quotations ++ position.quotations
  | .sliceFrom subject low => subject.quotations ++ low.quotations
  | .sliceTo subject high => subject.quotations ++ high.quotations
  | .slice subject low high => subject.quotations ++ low.quotations ++ high.quotations
  | .unary _ operand => operand.quotations
  | .binary _ left right => left.quotations ++ right.quotations
  | .case condition result more fallback =>
      condition.quotations ++ result.quotations ++ armQuotations more ++
        fallbackQuotations fallback

/-- Quotations of several expressions. -/
def listQuotations : List Expr → List (Quote × String)
  | [] => []
  | e :: rest => e.quotations ++ listQuotations rest

/-- Quotations of entries of a map, each key before its expression. -/
def entryQuotations : List (String × Expr) → List (Quote × String)
  | [] => []
  | (key, e) :: rest => (.backtick, key) :: e.quotations ++ entryQuotations rest

/-- Quotations of arms of a conditional. -/
def armQuotations : List (Expr × Expr) → List (Quote × String)
  | [] => []
  | (condition, result) :: rest =>
      condition.quotations ++ result.quotations ++ armQuotations rest

/-- Quotations of an optional expression. -/
def fallbackQuotations : Option Expr → List (Quote × String)
  | none => []
  | some e => e.quotations

end

end Expr

/-- Names in backticks. -/
def nameQuotations (names : List String) : List (Quote × String) :=
  names.map fun name => (.backtick, name)

/-- Quotations of a node: its labels, then its properties. -/
def NodePattern.quotations (n : NodePattern) : List (Quote × String) :=
  nameQuotations n.labels ++ Expr.entryQuotations n.properties

/-- Quotations of a relationship: its types, then its properties. -/
def RelationshipPattern.quotations (r : RelationshipPattern) : List (Quote × String) :=
  nameQuotations r.types ++ Expr.entryQuotations r.properties

/-- Quotations of a path. -/
def Path.quotations (p : Path) : List (Quote × String) :=
  p.start.quotations ++ p.steps.flatMap fun (relationship, node) =>
    relationship.quotations ++ node.quotations

/-- Quotations of a projection. -/
def Projection.quotations (p : Projection) : List (Quote × String) :=
  p.items.flatMap fun item => item.expr.quotations

mutual

/-- Quotations of a clause. -/
def Clause.quotations : Clause → List (Quote × String)
  | .matching _ first more filter =>
      (first :: more).flatMap Path.quotations ++ Expr.fallbackQuotations filter
  | .passing projection filter =>
      projection.quotations ++ Expr.fallbackQuotations filter
  | .unwind list _ => list.quotations
  | .create path => path.quotations
  | .setKey _ key value => (.backtick, key) :: value.quotations
  | .delete _ subject => subject.quotations
  | .returning projection => projection.quotations
  | .orderBy items => items.flatMap fun item => item.expr.quotations
  | .skip count => count.quotations
  | .limit count => count.quotations
  | .subquery body => body.quotations
  | .choice arms => arms.quotations

/-- Quotations of a conditional: those of the conditions, then those of the arms. -/
def Choice.quotations : Choice → List (Quote × String)
  | ⟨cases, fallback, _⟩ =>
      (cases.map Prod.fst).flatMap Expr.quotations ++ Choice.armQuotations cases ++
        fallback.quotations

/-- Quotations of the arms that have a condition. -/
def Choice.armQuotations : List (Expr × Statement) → List (Quote × String)
  | [] => []
  | (_, arm) :: rest => arm.quotations ++ Choice.armQuotations rest

/-- Quotations of a query. -/
def Query.quotations : Query → List (Quote × String)
  | ⟨clauses⟩ => Clause.listQuotations clauses

/-- Quotations of several clauses. -/
def Clause.listQuotations : List Clause → List (Quote × String)
  | [] => []
  | clause :: rest => clause.quotations ++ Clause.listQuotations rest

/-- Quotations of several queries. -/
def Query.listQuotations : List Query → List (Quote × String)
  | [] => []
  | query :: rest => query.quotations ++ Query.listQuotations rest

/-- Quotations of a statement. -/
def Statement.quotations : Statement → List (Quote × String)
  | ⟨first, more, _⟩ => first.quotations ++ Query.listQuotations more

end

/-- Quotations of a fragment. -/
def Fragment.quotations : Fragment → List (Quote × String)
  | .expr e => e.quotations
  | .node n => n.quotations
  | .relationship r => r.quotations
  | .length _ => []
  | .path p => p.quotations
  | .projection p => p.quotations
  | .clause c => c.quotations
  | .query q => q.quotations
  | .statement s => s.quotations

/-! ## Quotations of the pieces -/

namespace Piece

/-- The quotation a piece is, if it is one. -/
@[simp]
def quotation? : Piece → Option (Quote × String)
  | .quoted quote content => some (quote, content)
  | _ => none

/-- Quotations among pieces in order. -/
def quotations (ps : List Piece) : List (Quote × String) := ps.filterMap quotation?

@[simp]
theorem quotations_nil : quotations [] = [] := rfl

@[simp]
theorem quotations_cons (p : Piece) (rest : List Piece) :
    quotations (p :: rest) = p.quotation?.toList ++ quotations rest := by
  cases p <;> rfl

/-- The quotations of pieces come in the order of the pieces. -/
@[simp]
theorem quotations_append (xs ys : List Piece) :
    quotations (xs ++ ys) = quotations xs ++ quotations ys :=
  List.filterMap_append

@[simp]
theorem quotations_parenthesized (needed : Bool) (ps : List Piece) :
    quotations (parenthesized needed ps) = quotations ps := by
  cases needed with
  | false => rfl
  | true => simp [parenthesized]

theorem quotations_flatMap {α : Type} (f : α → List Piece) (as : List α) :
    quotations (as.flatMap f) = as.flatMap fun a => quotations (f a) :=
  List.filterMap_flatMap ..

/-- Commas between items are no quotations. -/
theorem quotations_commaMap {α : Type} (f : α → List Piece) (as : List α) :
    quotations (separated comma (as.map f)) = as.flatMap fun a => quotations (f a) := by
  rw [quotations, filterMap_separated rfl, List.flatMap_map]
  rfl

end Piece

/-- A string is quoted, and no other literal is. -/
theorem Literal.quotations_pieces (value : Literal) :
    Piece.quotations value.pieces = value.quotations := by
  cases value with
  | bool b => cases b <;> rfl
  | null | int _ | float _ | string _ => rfl

namespace Expr

mutual

/-- The text of an expression shows its quotations. -/
theorem quotations_pieces : ∀ e : Expr, Piece.quotations e.pieces = e.quotations
  | .literal value => value.quotations_pieces
  | .name var => rfl
  | .placeholder p => rfl
  | .call function first rest => by
      simp [pieces, quotations, quotations_pieces first, quotations_tailPieces rest]
  | .map entries => quotations_mapPieces entries
  | .list items => by simp [pieces, quotations, quotations_itemPieces items]
  | .property subject key => by simp [pieces, quotations, quotations_pieces subject]
  | .index subject position => by
      simp [pieces, quotations, quotations_pieces subject, quotations_pieces position]
  | .sliceFrom subject low => by
      simp [pieces, quotations, quotations_pieces subject, quotations_pieces low]
  | .sliceTo subject high => by
      simp [pieces, quotations, quotations_pieces subject, quotations_pieces high]
  | .slice subject low high => by
      simp [pieces, quotations, quotations_pieces subject, quotations_pieces low,
        quotations_pieces high]
  | .unary op operand => by
      cases op <;> simp [pieces, quotations, quotations_pieces operand]
  | .binary op left right => by
      simp [pieces, quotations, quotations_pieces left, quotations_pieces right]
  | .case condition result more fallback => by
      simp [pieces, quotations, quotations_pieces condition, quotations_pieces result,
        quotations_armPieces more, quotations_fallbackPieces fallback]

theorem quotations_itemPieces :
    ∀ es : List Expr, Piece.quotations (itemPieces es) = listQuotations es
  | [] => rfl
  | e :: rest => by
      simp [itemPieces, listQuotations, quotations_pieces e, quotations_tailPieces rest]

theorem quotations_tailPieces :
    ∀ es : List Expr, Piece.quotations (tailPieces es) = listQuotations es
  | [] => rfl
  | e :: rest => by
      simp [tailPieces, listQuotations, quotations_pieces e, quotations_tailPieces rest]

/-- The keys of a map are quoted, each before the quotations of its value. -/
theorem quotations_mapPieces :
    ∀ es : List (String × Expr), Piece.quotations (mapPieces es) = entryQuotations es
  | [] => rfl
  | (key, e) :: rest => by
      simp [mapPieces, entryQuotations, quotations_pieces e, quotations_entryPieces rest]

theorem quotations_entryPieces :
    ∀ es : List (String × Expr), Piece.quotations (entryPieces es) = entryQuotations es
  | [] => rfl
  | (key, e) :: rest => by
      simp [entryPieces, entryQuotations, quotations_pieces e, quotations_entryPieces rest]

theorem quotations_armPieces :
    ∀ es : List (Expr × Expr), Piece.quotations (armPieces es) = armQuotations es
  | [] => rfl
  | (condition, result) :: rest => by
      simp [armPieces, armQuotations, quotations_pieces condition, quotations_pieces result,
        quotations_armPieces rest]

theorem quotations_fallbackPieces :
    ∀ e : Option Expr, Piece.quotations (fallbackPieces e) = fallbackQuotations e
  | none => rfl
  | some e => by simp [fallbackPieces, fallbackQuotations, quotations_pieces e]

end

end Expr

/-! ## Patterns and projections -/

theorem quotations_variablePieces (var : Option Identifier) :
    Piece.quotations (variablePieces var) = [] := by
  cases var <;> rfl

theorem quotations_lengthPieces (length : Option Length) :
    Piece.quotations (lengthPieces length) = [] := by
  cases length <;> rfl

theorem quotations_propertyPieces (after : Bool) (properties : List (String × Expr)) :
    Piece.quotations (propertyPieces after properties) = Expr.entryQuotations properties := by
  unfold propertyPieces
  split
  · next hempty =>
      rw [List.isEmpty_iff.1 hempty]
      rfl
  · split <;> simp [Expr.quotations_mapPieces]

theorem quotations_labelPieces (labels : List String) :
    Piece.quotations (labelPieces labels) = nameQuotations labels := by
  rw [labelPieces, Piece.quotations_flatMap, nameQuotations, List.map_eq_flatMap]
  rfl

theorem quotations_typePieces (types : List String) :
    Piece.quotations (typePieces types) = nameQuotations types := by
  cases types with
  | nil => rfl
  | cons first rest =>
      have hrest : Piece.quotations (rest.flatMap fun type => [.word "|", .quoted .backtick type]) =
          nameQuotations rest := by
        rw [Piece.quotations_flatMap, nameQuotations, List.map_eq_flatMap]
        rfl
      simp [typePieces, hrest, nameQuotations]

/-- The labels of a node are quoted, then its properties. -/
theorem NodePattern.quotations_pieces (n : NodePattern) :
    Piece.quotations n.pieces = n.quotations := by
  simp [NodePattern.pieces, NodePattern.quotations, quotations_variablePieces,
    quotations_labelPieces, quotations_propertyPieces]

/-- The types of a relationship are quoted, then its properties. -/
theorem RelationshipPattern.quotations_pieces (r : RelationshipPattern) :
    Piece.quotations r.pieces = r.quotations := by
  have hbody : Piece.quotations (if r.isBare then [] else r.bodyPieces) = r.quotations := by
    split
    · next hbare =>
        -- a relationship without brackets has neither types nor properties
        simp only [RelationshipPattern.isBare, Bool.and_eq_true, List.isEmpty_iff] at hbare
        rw [RelationshipPattern.quotations, hbare.1.1.2, hbare.2]
        rfl
    · simp [RelationshipPattern.bodyPieces, RelationshipPattern.quotations,
        quotations_variablePieces, quotations_typePieces, quotations_lengthPieces,
        quotations_propertyPieces]
  simp [RelationshipPattern.pieces, hbody]

/-- The quotations of a path are those along it. -/
theorem Path.quotations_pieces (p : Path) : Piece.quotations p.pieces = p.quotations := by
  simp [Path.pieces, Path.quotations, Piece.quotations_flatMap, NodePattern.quotations_pieces,
    RelationshipPattern.quotations_pieces]

theorem quotations_filterPieces (filter : Option Expr) :
    Piece.quotations (filterPieces filter) = Expr.fallbackQuotations filter := by
  cases filter with
  | none => rfl
  | some condition => simp [filterPieces, Expr.fallbackQuotations, Expr.quotations_pieces]

theorem Column.quotations_pieces (item : Column) :
    Piece.quotations item.pieces = item.expr.quotations := by
  unfold Column.pieces
  cases item.alias? <;> simp [Expr.quotations_pieces]

theorem quotations_columnPieces (items : List Column) :
    Piece.quotations (columnPieces items) = items.flatMap fun item => item.expr.quotations := by
  simp [columnPieces, Piece.quotations_commaMap, Column.quotations_pieces]

/-- The quotations of a projection are those of its columns. -/
theorem Projection.quotations_pieces (p : Projection) :
    Piece.quotations p.pieces = p.quotations := by
  have hselection : Piece.quotations p.selection.pieces = p.quotations := by
    unfold Projection.quotations Projection.items
    cases p.selection with
    | everything more =>
        cases more with
        | nil => rfl
        | cons first rest => simp [Selection.pieces, quotations_columnPieces]
    | items first more => exact quotations_columnPieces (first :: more)
  unfold Projection.pieces
  split <;> simp [hselection]

theorem SortKey.quotations_pieces (item : SortKey) :
    Piece.quotations item.pieces = item.expr.quotations := by
  simp [SortKey.pieces, Expr.quotations_pieces]

/-! ## Clauses of a conditional -/

namespace Choice

theorem quotations_whenPieces (conditions : List Expr) (number : Nat) :
    Piece.quotations (whenPieces conditions number) = conditions.flatMap Expr.quotations := by
  induction conditions generalizing number with
  | nil => rfl
  | cons condition rest ih => simp [whenPieces, Expr.quotations_pieces, ih]

theorem quotations_selectorPieces (keepsScope : Bool) (selector : Identifier)
    (conditions : List Expr) :
    Piece.quotations (selectorPieces keepsScope selector conditions) =
      conditions.flatMap Expr.quotations := by
  cases keepsScope <;> simp [selectorPieces, quotations_whenPieces]

/-- A guard quotes nothing. -/
theorem quotations_guardPieces (keepsScope : Bool) (selector : Identifier) (number : Nat) :
    Piece.quotations (guardPieces keepsScope selector number) = [] := by
  cases keepsScope <;> rfl

theorem quotations_returnPieces (columns : List Identifier) :
    Piece.quotations (returnPieces columns) = [] := by
  simp [returnPieces, Piece.quotations_commaMap]

end Choice

theorem UnionMode.quotations_pieces (mode : UnionMode) : Piece.quotations mode.pieces = [] := rfl

/-! ## Statements -/

mutual

/-- The quotations in the text of a clause are those in its syntax. -/
theorem Clause.quotations_pieces (keepsScope : Bool) : ∀ (c : Clause) (supply : NameSupply),
    Piece.quotations (c.pieces keepsScope supply).1 = c.quotations
  | .matching optional first more filter, _ => by
      have hpaths := Piece.quotations_commaMap Path.pieces (first :: more)
      simp only [Path.quotations_pieces] at hpaths
      simp [Clause.pieces, Clause.quotations, ← hpaths, quotations_filterPieces]
  | .passing projection filter, _ => by
      simp [Clause.pieces, Clause.quotations, Projection.quotations_pieces,
        quotations_filterPieces]
  | .unwind list element, _ => by
      simp [Clause.pieces, Clause.quotations, Expr.quotations_pieces]
  | .create path, _ => by simp [Clause.pieces, Clause.quotations, Path.quotations_pieces]
  | .setKey var key value, _ => by
      simp [Clause.pieces, Clause.quotations, Expr.quotations_pieces]
  | .delete detach subject, _ => by
      simp [Clause.pieces, Clause.quotations, Expr.quotations_pieces]
  | .returning projection, _ => by
      simp [Clause.pieces, Clause.quotations, Projection.quotations_pieces]
  | .orderBy items, _ => by
      simp [Clause.pieces, Clause.quotations, Piece.quotations_commaMap,
        SortKey.quotations_pieces]
  | .skip count, _ => by simp [Clause.pieces, Clause.quotations, Expr.quotations_pieces]
  | .limit count, _ => by simp [Clause.pieces, Clause.quotations, Expr.quotations_pieces]
  | .subquery body, supply => by
      have hbody := Statement.quotations_pieces body supply
      simp [Clause.pieces, Clause.quotations, hbody]
  | .choice arms, supply => Choice.quotations_pieces keepsScope arms supply

theorem Choice.quotations_pieces (keepsScope : Bool) : ∀ (c : Choice) (supply : NameSupply),
    Piece.quotations (c.pieces keepsScope supply).1 = c.quotations
  | ⟨cases, fallback, columns⟩, supply => by
      have hguard := Choice.quotations_guardPieces keepsScope supply.next
      have harms := Choice.quotations_casePieces hguard cases supply.advance 0
      have hlast := Statement.quotations_armPieces (hguard cases.length) fallback
        (Choice.casePieces (Choice.guardPieces keepsScope supply.next) supply.advance 0 cases).2
      simp [Choice.pieces, Choice.quotations, Choice.quotations_selectorPieces,
        Choice.quotations_returnPieces, harms, hlast]

/-- Each arm is written once and quotes what it quotes alone. -/
theorem Choice.quotations_casePieces {guard : Nat → List Piece}
    (hguard : ∀ n, Piece.quotations (guard n) = []) :
    ∀ (cases : List (Expr × Statement)) (supply : NameSupply) (number : Nat),
      Piece.quotations (Choice.casePieces guard supply number cases).1 =
        Choice.armQuotations cases
  | [], _, _ => rfl
  | (_, arm) :: others, supply, number => by
      have harm := Statement.quotations_armPieces (hguard number) arm supply
      have hothers := Choice.quotations_casePieces hguard others
        (arm.armPieces (guard number) supply).2 (number + 1)
      simp [Choice.casePieces, Choice.armQuotations, harm, hothers,
        UnionMode.quotations_pieces]

theorem Statement.quotations_armPieces {guard : List Piece}
    (hguard : Piece.quotations guard = []) : ∀ (s : Statement) (supply : NameSupply),
    Piece.quotations (s.armPieces guard supply).1 = s.quotations
  | ⟨first, more, union⟩, supply => by
      have hfirst := Query.quotations_pieces first supply
      have hjoint : Piece.quotations (union.pieces ++ guard) = [] := by
        rw [Piece.quotations_append, union.quotations_pieces, hguard]
        rfl
      have hmore := Query.quotations_joinedPieces hjoint more (first.pieces supply).2
      simp [Statement.armPieces, Statement.quotations, hguard, hfirst, hmore]

theorem Query.quotations_pieces : ∀ (q : Query) (supply : NameSupply),
    Piece.quotations (q.pieces supply).1 = q.quotations
  | ⟨[]⟩, _ => rfl
  | ⟨first :: rest⟩, supply => by
      have hfirst := Clause.quotations_pieces false first supply
      have hrest := Clause.quotations_laterPieces rest (first.pieces false supply).2
      simp [Query.pieces, Query.quotations, Clause.listQuotations, hfirst, hrest]

theorem Clause.quotations_laterPieces : ∀ (cs : List Clause) (supply : NameSupply),
    Piece.quotations (Clause.laterPieces supply cs).1 = Clause.listQuotations cs
  | [], _ => rfl
  | clause :: rest, supply => by
      have hclause := Clause.quotations_pieces true clause supply
      have hrest := Clause.quotations_laterPieces rest (clause.pieces true supply).2
      simp [Clause.laterPieces, Clause.listQuotations, hclause, hrest]

theorem Query.quotations_joinedPieces {joint : List Piece}
    (hjoint : Piece.quotations joint = []) : ∀ (qs : List Query) (supply : NameSupply),
    Piece.quotations (Query.joinedPieces joint supply qs).1 = Query.listQuotations qs
  | [], _ => rfl
  | query :: rest, supply => by
      have hquery := Query.quotations_pieces query supply
      have hrest := Query.quotations_joinedPieces hjoint rest (query.pieces supply).2
      simp [Query.joinedPieces, Query.listQuotations, hjoint, hquery, hrest]

/-- The quotations in the text of a statement are those in its syntax, at every level. -/
theorem Statement.quotations_pieces : ∀ (s : Statement) (supply : NameSupply),
    Piece.quotations (s.pieces supply).1 = s.quotations
  | ⟨first, more, union⟩, supply => by
      have hfirst := Query.quotations_pieces first supply
      have hmore := Query.quotations_joinedPieces union.quotations_pieces more
        (first.pieces supply).2
      simp [Statement.pieces, Statement.quotations, hfirst, hmore]

end

/-- The quoted pieces of a rendering are the quotations of the fragment, in order. -/
theorem Fragment.quotations_pieces (f : Fragment) (supply : NameSupply) :
    Piece.quotations (f.pieces supply).1 = f.quotations := by
  cases f with
  | expr e => exact e.quotations_pieces
  | node n => exact n.quotations_pieces
  | relationship r => exact r.quotations_pieces
  | length l => rfl
  | path p => exact p.quotations_pieces
  | projection p => exact p.quotations_pieces
  | clause c => exact c.quotations_pieces false supply
  | query q => exact q.quotations_pieces supply
  | statement s => exact s.quotations_pieces supply

end GraphQuery
