import GraphQuery.Proofs.Rendering.Draws

/-!
# Edits of a fragment

An edit replaces what stands between the words of a query: the contents of quotes, the
placeholders, and the selectors that are drawn from the supply. Everything else stays.
Edits act on the syntax and on the pieces alike.

Main statement: `Fragment.pieces_edit`, the pieces of an edited fragment are the edited
pieces of the fragment. Two supplies may be used for the two renderings, as long as the
edit sends the selectors drawn from the one to those drawn from the other.
-/

set_option autoImplicit false

namespace GraphQuery

/-- Replacements for the contents of quotes, for placeholders and for selectors. -/
structure Edit where
  content : String → String
  placeholder : Placeholder → Placeholder
  selector : Identifier → Identifier

namespace Edit

/-- Edits that empty all quotes. -/
def blank : Edit := ⟨fun _ => "", id, id⟩

/-- Edits of placeholders and selectors. -/
def ofNames (f : Placeholder → Placeholder) (g : Identifier → Identifier) : Edit := ⟨id, f, g⟩

/-- Edits of placeholders only. -/
def ofPlaceholders (f : Placeholder → Placeholder) : Edit := ofNames f id

/-- Edits of selectors only. -/
def ofSelectors (g : Identifier → Identifier) : Edit := ofNames id g

end Edit

/-! ## Edits of the syntax -/

/-- The literal with its content replaced. -/
def Literal.edit (φ : Edit) : Literal → Literal
  | .string s => .string (φ.content s)
  | value => value

namespace Expr

mutual

/-- The expression with its quoted contents and its placeholders replaced. -/
def edit (φ : Edit) : Expr → Expr
  | .literal value => .literal (value.edit φ)
  | .name var => .name var
  | .placeholder p => .placeholder (φ.placeholder p)
  | .call function first rest =>
      .call (φ.content function) (first.edit φ) (editList φ rest)
  | .map entries => .map (editEntries φ entries)
  | .list items => .list (editList φ items)
  | .property subject key => .property (subject.edit φ) (φ.content key)
  | .index subject position => .index (subject.edit φ) (position.edit φ)
  | .sliceFrom subject low => .sliceFrom (subject.edit φ) (low.edit φ)
  | .sliceTo subject high => .sliceTo (subject.edit φ) (high.edit φ)
  | .slice subject low high => .slice (subject.edit φ) (low.edit φ) (high.edit φ)
  | .unary op operand => .unary op (operand.edit φ)
  | .binary op left right => .binary op (left.edit φ) (right.edit φ)
  | .case condition result more fallback =>
      .case (condition.edit φ) (result.edit φ) (editArms φ more) (editFallback φ fallback)

/-- The expressions, edited. -/
def editList (φ : Edit) : List Expr → List Expr
  | [] => []
  | e :: rest => e.edit φ :: editList φ rest

/-- The entries of a map with their keys and expressions edited. -/
def editEntries (φ : Edit) : List (String × Expr) → List (String × Expr)
  | [] => []
  | (key, e) :: rest => (φ.content key, e.edit φ) :: editEntries φ rest

/-- The arms of a conditional, edited. -/
def editArms (φ : Edit) : List (Expr × Expr) → List (Expr × Expr)
  | [] => []
  | (condition, result) :: rest => (condition.edit φ, result.edit φ) :: editArms φ rest

/-- The optional expression, edited. -/
def editFallback (φ : Edit) : Option Expr → Option Expr
  | none => none
  | some e => some (e.edit φ)

end

end Expr

/-- The node, edited. -/
def NodePattern.edit (φ : Edit) (n : NodePattern) : NodePattern :=
  ⟨n.var, n.labels.map φ.content, Expr.editEntries φ n.properties⟩

/-- The relationship, edited. -/
def RelationshipPattern.edit (φ : Edit) (r : RelationshipPattern) : RelationshipPattern :=
  ⟨r.direction, r.var, r.types.map φ.content, r.length, Expr.editEntries φ r.properties⟩

/-- The path, edited. -/
def Path.edit (φ : Edit) (p : Path) : Path :=
  ⟨p.start.edit φ, p.steps.map fun (relationship, node) => (relationship.edit φ, node.edit φ)⟩

/-- The column, edited. -/
def Column.edit (φ : Edit) (item : Column) : Column := ⟨item.expr.edit φ, item.alias?⟩

/-- The selection, edited. -/
def Selection.edit (φ : Edit) : Selection → Selection
  | .everything more => .everything (more.map (Column.edit φ))
  | .items first more => .items (first.edit φ) (more.map (Column.edit φ))

/-- The projection, edited. -/
def Projection.edit (φ : Edit) (p : Projection) : Projection :=
  ⟨p.distinct, p.selection.edit φ⟩

/-- The sort key, edited. -/
def SortKey.edit (φ : Edit) (item : SortKey) : SortKey := ⟨item.expr.edit φ, item.descending⟩

mutual

/-- The clause, edited. -/
def Clause.edit (φ : Edit) : Clause → Clause
  | .matching optional first more filter =>
      .matching optional (first.edit φ) (more.map (Path.edit φ)) (Expr.editFallback φ filter)
  | .passing projection filter => .passing (projection.edit φ) (Expr.editFallback φ filter)
  | .unwind list element => .unwind (list.edit φ) element
  | .create path => .create (path.edit φ)
  | .setKey var key value => .setKey var (φ.content key) (value.edit φ)
  | .delete detach subject => .delete detach (subject.edit φ)
  | .returning projection => .returning (projection.edit φ)
  | .orderBy items => .orderBy (items.map (SortKey.edit φ))
  | .skip count => .skip (count.edit φ)
  | .limit count => .limit (count.edit φ)
  | .subquery body => .subquery (body.edit φ)
  | .choice arms => .choice (arms.edit φ)

/-- The conditional, edited. -/
def Choice.edit (φ : Edit) : Choice → Choice
  | ⟨cases, fallback, columns⟩ => ⟨Choice.editCases φ cases, fallback.edit φ, columns⟩

/-- The cases of a conditional, edited. -/
def Choice.editCases (φ : Edit) : List (Expr × Statement) → List (Expr × Statement)
  | [] => []
  | (condition, arm) :: rest => (condition.edit φ, arm.edit φ) :: Choice.editCases φ rest

/-- The query, edited. -/
def Query.edit (φ : Edit) : Query → Query
  | ⟨clauses⟩ => ⟨Clause.editList φ clauses⟩

/-- The clauses, edited. -/
def Clause.editList (φ : Edit) : List Clause → List Clause
  | [] => []
  | clause :: rest => clause.edit φ :: Clause.editList φ rest

/-- The queries, edited. -/
def Query.editList (φ : Edit) : List Query → List Query
  | [] => []
  | query :: rest => query.edit φ :: Query.editList φ rest

/-- The statement, edited. -/
def Statement.edit (φ : Edit) : Statement → Statement
  | ⟨first, more, union⟩ => ⟨first.edit φ, Query.editList φ more, union⟩

end

/-- The fragment with its quoted contents and its placeholders replaced. -/
def Fragment.edit (φ : Edit) : Fragment → Fragment
  | .expr e => .expr (e.edit φ)
  | .node n => .node (n.edit φ)
  | .relationship r => .relationship (r.edit φ)
  | .length l => .length l
  | .path p => .path (p.edit φ)
  | .projection p => .projection (p.edit φ)
  | .clause c => .clause (c.edit φ)
  | .query q => .query (q.edit φ)
  | .statement s => .statement (s.edit φ)

/-! ## Edits of the pieces -/

namespace Piece

/-- The piece, edited. Words, names and breaks stay. -/
@[simp]
def edit (φ : Edit) : Piece → Piece
  | .selector id => .selector (φ.selector id)
  | .quoted quote content => .quoted quote (φ.content content)
  | .placeholder p => .placeholder (φ.placeholder p)
  | .word text => .word text
  | .name id => .name id
  | .gap => .gap
  | .lineBreak => .lineBreak
  | .openBody => .openBody
  | .closeBody => .closeBody

@[simp]
theorem map_edit_parenthesized (φ : Edit) (needed : Bool) (ps : List Piece) :
    (parenthesized needed ps).map (edit φ) = parenthesized needed (ps.map (edit φ)) := by
  cases needed with
  | false => rfl
  | true => simp [parenthesized]

@[simp]
theorem map_edit_separated (φ : Edit) : ∀ groups : List (List Piece),
    (separated comma groups).map (edit φ) = separated comma (groups.map (List.map (edit φ)))
  | [] => rfl
  | [_] => rfl
  | g :: g' :: rest => by
      have hrest := map_edit_separated φ (g' :: rest)
      rw [List.map_cons] at hrest
      rw [separated, List.map_append, List.map_append, hrest]
      · rfl
      · simp

end Piece

/-- Editing the content of a literal edits its pieces. -/
theorem Literal.pieces_edit (φ : Edit) (value : Literal) :
    (value.edit φ).pieces = value.pieces.map (Piece.edit φ) := by
  cases value with
  | bool b => cases b <;> rfl
  | null | int _ | float _ | string _ => rfl

namespace Expr

variable (φ : Edit)

/-- An edited operator is one, and no other expression becomes one. -/
@[simp]
theorem isOperator_edit (e : Expr) : (e.edit φ).isOperator = e.isOperator := by
  cases e <;> rfl

mutual

/-- The pieces of an edited expression are the edited pieces of the expression. -/
theorem pieces_edit : ∀ e : Expr, (e.edit φ).pieces = e.pieces.map (Piece.edit φ)
  | .literal value => value.pieces_edit φ
  | .name var => rfl
  | .placeholder p => rfl
  | .call function first rest => by
      simp [edit, pieces, pieces_edit first, tailPieces_edit rest]
  | .map entries => mapPieces_edit entries
  | .list items => by simp [edit, pieces, itemPieces_edit items]
  | .property subject key => by simp [edit, pieces, pieces_edit subject]
  | .index subject position => by simp [edit, pieces, pieces_edit subject, pieces_edit position]
  | .sliceFrom subject low => by simp [edit, pieces, pieces_edit subject, pieces_edit low]
  | .sliceTo subject high => by simp [edit, pieces, pieces_edit subject, pieces_edit high]
  | .slice subject low high => by
      simp [edit, pieces, pieces_edit subject, pieces_edit low, pieces_edit high]
  | .unary op operand => by cases op <;> simp [edit, pieces, pieces_edit operand]
  | .binary op left right => by simp [edit, pieces, pieces_edit left, pieces_edit right]
  | .case condition result more fallback => by
      simp [edit, pieces, pieces_edit condition, pieces_edit result, armPieces_edit more,
        fallbackPieces_edit fallback]

theorem itemPieces_edit : ∀ es : List Expr,
    itemPieces (editList φ es) = (itemPieces es).map (Piece.edit φ)
  | [] => rfl
  | e :: rest => by simp [editList, itemPieces, pieces_edit e, tailPieces_edit rest]

theorem tailPieces_edit : ∀ es : List Expr,
    tailPieces (editList φ es) = (tailPieces es).map (Piece.edit φ)
  | [] => rfl
  | e :: rest => by simp [editList, tailPieces, pieces_edit e, tailPieces_edit rest]

/-- The keys of a map are edited as what they are quoted as. -/
theorem mapPieces_edit : ∀ es : List (String × Expr),
    mapPieces (editEntries φ es) = (mapPieces es).map (Piece.edit φ)
  | [] => rfl
  | (key, e) :: rest => by simp [editEntries, mapPieces, pieces_edit e, entryPieces_edit rest]

theorem entryPieces_edit : ∀ es : List (String × Expr),
    entryPieces (editEntries φ es) = (entryPieces es).map (Piece.edit φ)
  | [] => rfl
  | (key, e) :: rest => by simp [editEntries, entryPieces, pieces_edit e, entryPieces_edit rest]

theorem armPieces_edit : ∀ es : List (Expr × Expr),
    armPieces (editArms φ es) = (armPieces es).map (Piece.edit φ)
  | [] => rfl
  | (condition, result) :: rest => by
      simp [editArms, armPieces, pieces_edit condition, pieces_edit result, armPieces_edit rest]

theorem fallbackPieces_edit : ∀ e : Option Expr,
    fallbackPieces (editFallback φ e) = (fallbackPieces e).map (Piece.edit φ)
  | none => rfl
  | some e => by simp [editFallback, fallbackPieces, pieces_edit e]

end

end Expr

/-! ## Patterns and projections -/

section Patterns

variable (φ : Edit)

theorem map_edit_variablePieces (var : Option Identifier) :
    (variablePieces var).map (Piece.edit φ) = variablePieces var := by
  cases var <;> rfl

theorem map_edit_lengthPieces (length : Option Length) :
    (lengthPieces length).map (Piece.edit φ) = lengthPieces length := by
  cases length <;> rfl

theorem isEmpty_editEntries (entries : List (String × Expr)) :
    (Expr.editEntries φ entries).isEmpty = entries.isEmpty := by
  cases entries <;> rfl

/-- Properties are edited with the space before them in place. -/
theorem propertyPieces_edit (after : Bool) (properties : List (String × Expr)) :
    propertyPieces after (Expr.editEntries φ properties) =
      (propertyPieces after properties).map (Piece.edit φ) := by
  unfold propertyPieces
  rw [isEmpty_editEntries, Expr.mapPieces_edit]
  split
  · rfl
  · split <;> rfl

theorem labelPieces_edit (labels : List String) :
    labelPieces (labels.map φ.content) = (labelPieces labels).map (Piece.edit φ) := by
  simp [labelPieces, List.flatMap_map, List.map_flatMap]

theorem typePieces_edit (types : List String) :
    typePieces (types.map φ.content) = (typePieces types).map (Piece.edit φ) := by
  cases types with
  | nil => rfl
  | cons first rest => simp [typePieces, List.flatMap_map, List.map_flatMap]

theorem NodePattern.pieces_edit (n : NodePattern) :
    (n.edit φ).pieces = n.pieces.map (Piece.edit φ) := by
  simp [NodePattern.pieces, NodePattern.edit, map_edit_variablePieces, labelPieces_edit,
    propertyPieces_edit]

/-- An edit makes no arrow bare. -/
theorem RelationshipPattern.isBare_edit (r : RelationshipPattern) :
    (r.edit φ).isBare = r.isBare := by
  simp [RelationshipPattern.isBare, RelationshipPattern.edit, isEmpty_editEntries]

theorem RelationshipPattern.pieces_edit (r : RelationshipPattern) :
    (r.edit φ).pieces = r.pieces.map (Piece.edit φ) := by
  have hbody : (r.edit φ).bodyPieces = r.bodyPieces.map (Piece.edit φ) := by
    simp [RelationshipPattern.bodyPieces, RelationshipPattern.edit, map_edit_variablePieces,
      typePieces_edit, map_edit_lengthPieces, propertyPieces_edit]
  unfold RelationshipPattern.pieces
  rw [r.isBare_edit φ, hbody]
  cases r.isBare <;> simp [RelationshipPattern.edit]

/-- An edit of a path edits its pieces. -/
theorem Path.pieces_edit (p : Path) : (p.edit φ).pieces = p.pieces.map (Piece.edit φ) := by
  simp [Path.pieces, Path.edit, NodePattern.pieces_edit, RelationshipPattern.pieces_edit,
    List.flatMap_map, List.map_flatMap]

theorem filterPieces_edit (filter : Option Expr) :
    filterPieces (Expr.editFallback φ filter) = (filterPieces filter).map (Piece.edit φ) := by
  cases filter with
  | none => rfl
  | some condition => simp [Expr.editFallback, filterPieces, Expr.pieces_edit]

theorem Column.pieces_edit (item : Column) :
    (item.edit φ).pieces = item.pieces.map (Piece.edit φ) := by
  unfold Column.pieces Column.edit
  cases item.alias? <;> simp [Expr.pieces_edit]

theorem columnPieces_edit (items : List Column) :
    columnPieces (items.map (Column.edit φ)) = (columnPieces items).map (Piece.edit φ) := by
  simp [columnPieces, Function.comp_def, Column.pieces_edit]

theorem Selection.pieces_edit (s : Selection) :
    (s.edit φ).pieces = s.pieces.map (Piece.edit φ) := by
  cases s with
  | everything more =>
      cases more with
      | nil => rfl
      | cons first rest =>
          have hcolumns := columnPieces_edit φ (first :: rest)
          rw [List.map_cons] at hcolumns
          simp [Selection.edit, Selection.pieces, hcolumns]
  | items first more => exact columnPieces_edit φ (first :: more)

/-- An edit of a projection edits its pieces. -/
theorem Projection.pieces_edit (p : Projection) :
    (p.edit φ).pieces = p.pieces.map (Piece.edit φ) := by
  unfold Projection.pieces Projection.edit
  dsimp only
  split <;> simp [Selection.pieces_edit]

theorem SortKey.pieces_edit (item : SortKey) :
    (item.edit φ).pieces = item.pieces.map (Piece.edit φ) := by
  show (item.expr.edit φ).pieces ++ _ = (item.expr.pieces ++ _).map (Piece.edit φ)
  rw [List.map_append, Expr.pieces_edit]
  rfl

end Patterns

/-! ## Clauses of a conditional -/

namespace Choice

variable (φ : Edit)

theorem fst_editCases (cases : List (Expr × Statement)) :
    (Choice.editCases φ cases).map Prod.fst = (cases.map Prod.fst).map (Expr.edit φ) := by
  induction cases with
  | nil => rfl
  | cons first rest ih => rw [editCases, List.map_cons, List.map_cons, List.map_cons, ih]

theorem whenPieces_edit (conditions : List Expr) (number : Nat) :
    whenPieces (conditions.map (Expr.edit φ)) number =
      (whenPieces conditions number).map (Piece.edit φ) := by
  induction conditions generalizing number with
  | nil => rfl
  | cons condition rest ih => simp [whenPieces, Expr.pieces_edit, ih]

/-- The clause that computes a selector is edited with its selector. -/
theorem selectorPieces_edit (keepsScope : Bool) (selector : Identifier)
    (conditions : List Expr) :
    selectorPieces keepsScope (φ.selector selector) (conditions.map (Expr.edit φ)) =
      (selectorPieces keepsScope selector conditions).map (Piece.edit φ) := by
  cases keepsScope <;> simp [selectorPieces, whenPieces_edit]

/-- So is a guard. -/
theorem guardPieces_edit (keepsScope : Bool) (selector : Identifier) (number : Nat) :
    guardPieces keepsScope (φ.selector selector) number =
      (guardPieces keepsScope selector number).map (Piece.edit φ) := by
  cases keepsScope <;> rfl

theorem map_edit_returnPieces (columns : List Identifier) :
    (returnPieces columns).map (Piece.edit φ) = returnPieces columns := by
  simp [returnPieces, Function.comp_def]

end Choice

theorem UnionMode.map_edit_pieces (φ : Edit) (mode : UnionMode) :
    mode.pieces.map (Piece.edit φ) = mode.pieces := rfl

/-! ## Two supplies -/

/-- Whether the next names of one supply are sent to the next names of another. -/
def NameSupply.Redraws (g : Identifier → Identifier) (s t : NameSupply) (draws : Nat) : Prop :=
  ∀ k < draws, g (s.stem.numbered (s.issued + k)) = t.stem.numbered (t.issued + k)

namespace NameSupply.Redraws

variable {g : Identifier → Identifier} {s t : NameSupply} {first second : Nat}

theorem refl (s : NameSupply) (draws : Nat) : Redraws id s s draws := fun _ _ => rfl

theorem left (h : Redraws g s t (first + second)) : Redraws g s t first :=
  fun k hk => h k (Nat.lt_add_right second hk)

theorem right (h : Redraws g s t (first + second)) :
    Redraws g (s.after first) (t.after first) second := by
  intro k hk
  have hshift := h (first + k) (Nat.add_lt_add_left hk first)
  rw [← Nat.add_assoc, ← Nat.add_assoc] at hshift
  exact hshift

/-- A supply and the one that redraws it draw corresponding names. -/
theorem next (h : Redraws g s t (1 + second)) : g s.next = t.next :=
  h 0 (by omega)

end NameSupply.Redraws

open NameSupply (Redraws)

variable (φ : Edit)

mutual

/-- An edited clause that draws the edited names has the edited pieces. -/
theorem Clause.pieces_edit (keepsScope : Bool) : ∀ (c : Clause) (s t : NameSupply),
    Redraws φ.selector s t c.choiceCount →
      (c.edit φ).pieces keepsScope t =
        ((c.pieces keepsScope s).1.map (Piece.edit φ), t.after c.choiceCount)
  | .matching optional first more filter, _, _, _ => by
      refine Prod.ext ?_ rfl
      simp [Clause.edit, Clause.pieces, Function.comp_def, Path.pieces_edit, filterPieces_edit]
  | .passing projection filter, _, _, _ => by
      refine Prod.ext ?_ rfl
      simp [Clause.edit, Clause.pieces, Projection.pieces_edit, filterPieces_edit]
  | .unwind list element, _, _, _ => by
      refine Prod.ext ?_ rfl
      simp [Clause.edit, Clause.pieces, Expr.pieces_edit]
  | .create path, _, _, _ => by
      refine Prod.ext ?_ rfl
      simp [Clause.edit, Clause.pieces, Path.pieces_edit]
  | .setKey var key value, _, _, _ => by
      refine Prod.ext ?_ rfl
      simp [Clause.edit, Clause.pieces, Expr.pieces_edit]
  | .delete detach subject, _, _, _ => by
      refine Prod.ext ?_ rfl
      simp [Clause.edit, Clause.pieces, Expr.pieces_edit]
  | .returning projection, _, _, _ => by
      refine Prod.ext ?_ rfl
      simp [Clause.edit, Clause.pieces, Projection.pieces_edit]
  | .orderBy items, _, _, _ => by
      refine Prod.ext ?_ rfl
      simp [Clause.edit, Clause.pieces, Function.comp_def, SortKey.pieces_edit]
  | .skip count, _, _, _ => by
      refine Prod.ext ?_ rfl
      simp [Clause.edit, Clause.pieces, Expr.pieces_edit]
  | .limit count, _, _, _ => by
      refine Prod.ext ?_ rfl
      simp [Clause.edit, Clause.pieces, Expr.pieces_edit]
  | .subquery body, s, t, h => by
      have hbody := Statement.pieces_edit body s t h
      simp [Clause.edit, Clause.pieces, hbody, Clause.choiceCount]
  | .choice arms, s, t, h => Choice.pieces_edit keepsScope arms s t h

theorem Choice.pieces_edit (keepsScope : Bool) : ∀ (c : Choice) (s t : NameSupply),
    Redraws φ.selector s t c.choiceCount →
      (c.edit φ).pieces keepsScope t =
        ((c.pieces keepsScope s).1.map (Piece.edit φ), t.after c.choiceCount)
  | ⟨cases, fallback, columns⟩, s, t, h => by
      have hselector : φ.selector s.next = t.next := h.left.next
      have hguard : Choice.guardPieces keepsScope t.next = fun number =>
          (Choice.guardPieces keepsScope s.next number).map (Piece.edit φ) := by
        funext number
        rw [← hselector, Choice.guardPieces_edit]
      have hlength : (Choice.editCases φ cases).length = cases.length := by
        have hfst := congrArg List.length (Choice.fst_editCases φ cases)
        simpa using hfst
      have hcases := Choice.casePieces_edit (Choice.guardPieces keepsScope s.next) cases
        s.advance t.advance 0 h.left.right
      have hfallback := Statement.armPieces_edit
        (Choice.guardPieces keepsScope s.next cases.length) fallback _ _ h.right
      have hconditions := Choice.selectorPieces_edit φ keepsScope s.next (cases.map Prod.fst)
      rw [hselector, ← Choice.fst_editCases] at hconditions
      simp [Choice.edit, Choice.pieces, Choice.choiceCount, Choice.supply_casePieces,
        Choice.map_edit_returnPieces, hguard, hlength, hcases, hconditions,
        NameSupply.advance_after, hfallback, NameSupply.after_after]

theorem Choice.casePieces_edit (guard : Nat → List Piece) :
    ∀ (cases : List (Expr × Statement)) (s t : NameSupply) (number : Nat),
      Redraws φ.selector s t (Choice.caseCount cases) →
        Choice.casePieces (fun n => (guard n).map (Piece.edit φ)) t number
            (Choice.editCases φ cases) =
          ((Choice.casePieces guard s number cases).1.map (Piece.edit φ),
            t.after (Choice.caseCount cases))
  | [], _, _, _, _ => rfl
  | (condition, arm) :: rest, s, t, number, h => by
      have harm := Statement.armPieces_edit (guard number) arm s t h.left
      have hrest := Choice.casePieces_edit guard rest _ _ (number + 1) h.right
      simp [Choice.editCases, Choice.casePieces, Choice.caseCount, harm, hrest,
        Statement.supply_armPieces, NameSupply.after_after, UnionMode.map_edit_pieces]

theorem Statement.armPieces_edit (guard : List Piece) : ∀ (a : Statement) (s t : NameSupply),
    Redraws φ.selector s t a.choiceCount →
      (a.edit φ).armPieces (guard.map (Piece.edit φ)) t =
        ((a.armPieces guard s).1.map (Piece.edit φ), t.after a.choiceCount)
  | ⟨first, more, union⟩, s, t, h => by
      have hfirst := Query.pieces_edit first s t h.left
      have hmore := Query.joinedPieces_edit (union.pieces ++ guard) more _ _ h.right
      rw [List.map_append, union.map_edit_pieces] at hmore
      simp [Statement.edit, Statement.armPieces, Statement.choiceCount, hfirst, hmore,
        Query.supply_pieces, NameSupply.after_after]

theorem Query.pieces_edit : ∀ (q : Query) (s t : NameSupply),
    Redraws φ.selector s t q.choiceCount →
      (q.edit φ).pieces t = ((q.pieces s).1.map (Piece.edit φ), t.after q.choiceCount)
  | ⟨[]⟩, _, _, _ => rfl
  | ⟨first :: rest⟩, s, t, h => by
      have hfirst := Clause.pieces_edit false first s t h.left
      have hrest := Clause.laterPieces_edit rest _ _ h.right
      simp [Query.edit, Clause.editList, Query.pieces, Query.choiceCount, Clause.listCount, hfirst,
        hrest, Clause.supply_pieces, NameSupply.after_after]

theorem Clause.laterPieces_edit : ∀ (cs : List Clause) (s t : NameSupply),
    Redraws φ.selector s t (Clause.listCount cs) →
      Clause.laterPieces t (Clause.editList φ cs) =
        ((Clause.laterPieces s cs).1.map (Piece.edit φ), t.after (Clause.listCount cs))
  | [], _, _, _ => rfl
  | clause :: rest, s, t, h => by
      have hclause := Clause.pieces_edit true clause s t h.left
      have hrest := Clause.laterPieces_edit rest _ _ h.right
      simp [Clause.editList, Clause.laterPieces, Clause.listCount, hclause, hrest,
        Clause.supply_pieces, NameSupply.after_after]

theorem Query.joinedPieces_edit (joint : List Piece) : ∀ (qs : List Query) (s t : NameSupply),
    Redraws φ.selector s t (Query.listCount qs) →
      Query.joinedPieces (joint.map (Piece.edit φ)) t (Query.editList φ qs) =
        ((Query.joinedPieces joint s qs).1.map (Piece.edit φ), t.after (Query.listCount qs))
  | [], _, _, _ => rfl
  | query :: rest, s, t, h => by
      have hquery := Query.pieces_edit query s t h.left
      have hrest := Query.joinedPieces_edit joint rest _ _ h.right
      simp [Query.editList, Query.joinedPieces, Query.listCount, hquery, hrest,
        Query.supply_pieces, NameSupply.after_after]

/-- An edited statement that draws the edited names has the edited pieces, at every level. -/
theorem Statement.pieces_edit : ∀ (a : Statement) (s t : NameSupply),
    Redraws φ.selector s t a.choiceCount →
      (a.edit φ).pieces t = ((a.pieces s).1.map (Piece.edit φ), t.after a.choiceCount)
  | ⟨first, more, union⟩, s, t, h => by
      have hfirst := Query.pieces_edit first s t h.left
      have hmore := Query.joinedPieces_edit union.pieces more _ _ h.right
      rw [union.map_edit_pieces] at hmore
      simp [Statement.edit, Statement.pieces, Statement.choiceCount, hfirst, hmore,
        Query.supply_pieces, NameSupply.after_after]

end

/-- The pieces of an edited fragment are the edited pieces of the fragment. -/
theorem Fragment.pieces_edit (f : Fragment) {s t : NameSupply}
    (h : Redraws φ.selector s t f.choiceCount) :
    (f.edit φ).pieces t = ((f.pieces s).1.map (Piece.edit φ), t.after f.choiceCount) := by
  cases f with
  | expr e => exact Prod.ext (e.pieces_edit φ) rfl
  | node n => exact Prod.ext (n.pieces_edit φ) rfl
  | relationship r => exact Prod.ext (r.pieces_edit φ) rfl
  | length l => rfl
  | path p => exact Prod.ext (p.pieces_edit φ) rfl
  | projection p => exact Prod.ext (p.pieces_edit φ) rfl
  | clause c => exact c.pieces_edit φ false s t h
  | query q => exact q.pieces_edit φ s t h
  | statement a => exact a.pieces_edit φ s t h

end GraphQuery
