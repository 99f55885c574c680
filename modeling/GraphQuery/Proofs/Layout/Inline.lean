import GraphQuery.Proofs.Rendering.Expr
import GraphQuery.Rendering.Statement

/-!
# Clauses on one line

Patterns, projections and the clauses around a conditional have no place where a line ends.
A clause that holds no statement is a line of its own, which begins with the words of the
clause.

Main statement: `Clause.exists_line`, what the pieces of such a clause are.
-/

set_option autoImplicit false

namespace GraphQuery

namespace Piece

theorem all_isInline_append {xs ys : List Piece} (hx : xs.all isInline = true)
    (hy : ys.all isInline = true) : (xs ++ ys).all isInline = true := by
  rw [List.all_append, hx, hy]
  rfl

theorem all_isInline_flatMap {α : Type} {f : α → List Piece}
    (h : ∀ a, (f a).all isInline = true) (as : List α) :
    (as.flatMap f).all isInline = true := by
  rw [List.all_flatMap, List.all_eq_true]
  exact fun a _ => h a

/-- Commas between groups end no line. -/
theorem all_isInline_separated : ∀ groups : List (List Piece),
    (∀ g ∈ groups, g.all isInline = true) → (separated comma groups).all isInline = true
  | [], _ => rfl
  | [g], h => h g List.mem_cons_self
  | g :: g' :: rest, h => by
      have hrest := all_isInline_separated (g' :: rest) fun x hx => h x (List.mem_cons_of_mem g hx)
      rw [separated]
      · exact all_isInline_append (all_isInline_append (h g List.mem_cons_self) rfl) hrest
      · simp

theorem all_isInline_commaMap {α : Type} {f : α → List Piece}
    (h : ∀ a, (f a).all isInline = true) (as : List α) :
    (separated comma (as.map f)).all isInline = true := by
  refine all_isInline_separated _ fun g hg => ?_
  obtain ⟨a, -, rfl⟩ := List.mem_map.1 hg
  exact h a

end Piece

/-! ## Patterns -/

theorem inline_variablePieces (var : Option Identifier) :
    (variablePieces var).all Piece.isInline = true := by
  cases var <;> rfl

/-- Properties stay on one line, with or without the space before them. -/
theorem inline_propertyPieces (after : Bool) (properties : List (String × Expr)) :
    (propertyPieces after properties).all Piece.isInline = true := by
  have hmap := Expr.inline_mapPieces properties
  unfold propertyPieces
  split
  · rfl
  · split
    · exact hmap
    · exact hmap

theorem inline_labelPieces (labels : List String) :
    (labelPieces labels).all Piece.isInline = true :=
  Piece.all_isInline_flatMap (fun _ => rfl) labels

theorem inline_typePieces (types : List String) :
    (typePieces types).all Piece.isInline = true := by
  cases types with
  | nil => rfl
  | cons first rest => exact Piece.all_isInline_flatMap (fun _ => rfl) rest

theorem inline_lengthPieces (length : Option Length) :
    (lengthPieces length).all Piece.isInline = true := by
  cases length <;> rfl

/-- No line ends inside a node. -/
theorem NodePattern.inline_pieces (n : NodePattern) : n.pieces.all Piece.isInline = true := by
  simp [NodePattern.pieces, inline_variablePieces, inline_labelPieces, inline_propertyPieces]

/-- No line ends inside a relationship. -/
theorem RelationshipPattern.inline_pieces (r : RelationshipPattern) :
    r.pieces.all Piece.isInline = true := by
  have hbody : r.bodyPieces.all Piece.isInline = true := by
    simp [RelationshipPattern.bodyPieces, inline_variablePieces, inline_typePieces,
      inline_lengthPieces, inline_propertyPieces]
  unfold RelationshipPattern.pieces
  cases r.isBare <;> simp [hbody]

/-- No line ends inside a path, however many steps it has. -/
theorem Path.inline_pieces (p : Path) : p.pieces.all Piece.isInline = true := by
  have hsteps := Piece.all_isInline_flatMap
    (f := fun (step : RelationshipPattern × NodePattern) => step.1.pieces ++ step.2.pieces)
    (fun step => by simp [step.1.inline_pieces, step.2.inline_pieces]) p.steps
  exact Piece.all_isInline_append p.start.inline_pieces hsteps

/-! ## Projections -/

theorem inline_filterPieces (filter : Option Expr) :
    (filterPieces filter).all Piece.isInline = true := by
  cases filter with
  | none => rfl
  | some condition => exact condition.inline_pieces

/-- No line ends inside a column or before its alias. -/
theorem Column.inline_pieces (item : Column) : item.pieces.all Piece.isInline = true := by
  unfold Column.pieces
  cases item.alias? <;> simp [item.expr.inline_pieces]

theorem inline_columnPieces (items : List Column) :
    (columnPieces items).all Piece.isInline = true :=
  Piece.all_isInline_commaMap Column.inline_pieces items

/-- No line ends inside a projection. -/
theorem Projection.inline_pieces (p : Projection) : p.pieces.all Piece.isInline = true := by
  have hselection : p.selection.pieces.all Piece.isInline = true := by
    cases p.selection with
    | everything more =>
        cases more with
        | nil => rfl
        | cons first rest => exact inline_columnPieces (first :: rest)
    | items first more => exact inline_columnPieces (first :: more)
  unfold Projection.pieces
  split
  · exact hselection
  · exact hselection

theorem SortKey.inline_pieces (item : SortKey) : item.pieces.all Piece.isInline = true := by
  simp [SortKey.pieces, item.expr.inline_pieces]

/-! ## Clauses -/

namespace Choice

/-- The conditions that compute a selector stand on one line. -/
theorem inline_whenPieces (conditions : List Expr) (number : Nat) :
    (whenPieces conditions number).all Piece.isInline = true := by
  induction conditions generalizing number with
  | nil => rfl
  | cons condition rest ih => simp [whenPieces, condition.inline_pieces, ih]

theorem inline_scopePieces (keepsScope : Bool) (selector : Identifier) :
    (scopePieces keepsScope selector).all Piece.isInline = true := by
  cases keepsScope <;> rfl

/-- The clause that computes a selector is a line. -/
theorem inline_selectorPieces (keepsScope : Bool) (selector : Identifier)
    (conditions : List Expr) :
    (selectorPieces keepsScope selector conditions).all Piece.isInline = true := by
  cases keepsScope <;> simp [selectorPieces, inline_whenPieces]

/-- The clause that returns the columns of a conditional is a line. -/
theorem inline_returnPieces (columns : List Identifier) :
    (returnPieces columns).all Piece.isInline = true :=
  Piece.all_isInline_commaMap (f := fun id => [.name id]) (fun _ => rfl) columns

end Choice

/-- Words that can begin a line: there are some, and they join no queries. -/
structure LineWords (words : String) : Prop where
  nonempty : words ≠ ""
  not_joint : ∀ mode : UnionMode, words ≠ mode.words

/-- Words are those of a line if they are neither empty nor those of a union. -/
theorem LineWords.of_ne {words : String}
    (h : words ≠ "" ∧ words ≠ "UNION" ∧ words ≠ "UNION ALL") : LineWords words := by
  refine ⟨h.1, fun mode => ?_⟩
  cases mode with
  | distinct => exact h.2.1
  | all => exact h.2.2

/-- Clauses that hold no statement. -/
def Clause.isPlain : Clause → Bool
  | .subquery .. => false
  | .choice .. => false
  | _ => true

/-- A clause that holds no statement draws no name and is written on one line, which begins
with words that join no queries. -/
theorem Clause.exists_line {c : Clause} (h : c.isPlain = true) :
    ∃ words rest, LineWords words ∧ rest.all Piece.isInline = true ∧
      ∀ keepsScope supply, c.pieces keepsScope supply = (.word words :: rest, supply) := by
  cases c with
  | matching optional first more filter =>
      have hpaths := Piece.all_isInline_commaMap Path.inline_pieces (first :: more)
      refine ⟨_, _, .of_ne ?_,
        Piece.all_isInline_append hpaths (inline_filterPieces filter), fun _ _ => rfl⟩
      cases optional <;> decide
  | passing projection filter =>
      have hfilter := inline_filterPieces filter
      exact ⟨"WITH ", _, .of_ne (by decide),
        Piece.all_isInline_append projection.inline_pieces hfilter, fun _ _ => rfl⟩
  | unwind list element =>
      have hname : [Piece.word " AS ", .name element].all Piece.isInline = true := rfl
      exact ⟨"UNWIND ", _, .of_ne (by decide),
        Piece.all_isInline_append list.inline_pieces hname, fun _ _ => rfl⟩
  | create path =>
      exact ⟨"CREATE ", _, .of_ne (by decide), path.inline_pieces, fun _ _ => rfl⟩
  | setKey var key value =>
      exact ⟨"SET ", .name var :: .word "." :: .quoted .backtick key :: .word " = " :: value.pieces,
        .of_ne (by decide), value.inline_pieces, fun _ _ => rfl⟩
  | delete detach subject =>
      refine ⟨_, _, .of_ne ?_, subject.inline_pieces, fun _ _ => rfl⟩
      cases detach <;> decide
  | returning projection =>
      exact ⟨"RETURN ", _, .of_ne (by decide), projection.inline_pieces, fun _ _ => rfl⟩
  | orderBy items =>
      have hitems := Piece.all_isInline_commaMap SortKey.inline_pieces items
      exact ⟨"ORDER BY ", _, .of_ne (by decide), hitems, fun _ _ => rfl⟩
  | skip count =>
      exact ⟨"SKIP ", _, .of_ne (by decide), count.inline_pieces, fun _ _ => rfl⟩
  | limit count =>
      exact ⟨"LIMIT ", _, .of_ne (by decide), count.inline_pieces, fun _ _ => rfl⟩
  | subquery body => cases h
  | choice arms => cases h

end GraphQuery
