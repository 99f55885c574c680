import GraphQuery.Proofs.Rendering.Expr
import GraphQuery.Rendering.Pattern

/-!
# Spacing and placeholders of patterns

The pieces of nodes, relationships, lengths and paths are well spaced, and they show
the placeholders of the properties in order.
-/

set_option autoImplicit false

namespace GraphQuery

open Piece (WellSpaced startsApart)

/-- Groups of pieces that begin apart can follow each other. -/
theorem Piece.wellSpaced_flatMap {α : Type} {f : α → List Piece} (hw : ∀ a, WellSpaced (f a))
    (hs : ∀ a, startsApart (f a) = true) (as : List α) :
    WellSpaced (as.flatMap f) ∧ startsApart (as.flatMap f) = true := by
  induction as with
  | nil => exact ⟨trivial, rfl⟩
  | cons a rest ih =>
      rw [List.flatMap_cons]
      exact ⟨(hw a).append ih.1 ih.2, startsApart_append (hs a) ih.2⟩

theorem Piece.placeholders_flatMap {α : Type} (f : α → List Piece) (as : List α) :
    Piece.placeholders (as.flatMap f) = as.flatMap fun a => Piece.placeholders (f a) := by
  induction as with
  | nil => rfl
  | cons a rest ih => rw [List.flatMap_cons, placeholders_append, ih, List.flatMap_cons]

theorem wellSpaced_variablePieces (var : Option Identifier) : WellSpaced (variablePieces var) := by
  cases var with
  | none => trivial
  | some id => exact .apart rfl rfl trivial

theorem placeholders_variablePieces (var : Option Identifier) :
    Piece.placeholders (variablePieces var) = [] := by
  cases var <;> rfl

/-! ## Properties, labels and types -/

theorem startsApart_mapPieces (entries : List (String × Expr)) :
    startsApart (Expr.mapPieces entries) = true := by
  cases entries with
  | nil => rfl
  | cons entry rest => rfl

theorem wellSpaced_propertyPieces (after : Bool) (properties : List (String × Expr)) :
    WellSpaced (propertyPieces after properties) ∧
      startsApart (propertyPieces after properties) = true := by
  have hmap := Expr.wellSpaced_mapPieces properties
  unfold propertyPieces
  split
  · exact ⟨trivial, rfl⟩
  · split
    · exact ⟨.closed (by decide) hmap, rfl⟩
    · exact ⟨hmap, startsApart_mapPieces properties⟩

theorem placeholders_propertyPieces (after : Bool) (properties : List (String × Expr)) :
    Piece.placeholders (propertyPieces after properties) = Expr.entryPlaceholders properties := by
  unfold propertyPieces
  split
  · next hempty =>
      rw [List.isEmpty_iff.1 hempty]
      rfl
  · split <;> simp [Expr.placeholders_mapPieces]

theorem wellSpaced_labelPieces (labels : List String) :
    WellSpaced (labelPieces labels) ∧ startsApart (labelPieces labels) = true :=
  Piece.wellSpaced_flatMap (f := fun label => [.word ":", .quoted .backtick label])
    (fun _ => .closed (by decide) (.apart rfl rfl trivial)) (fun _ => rfl) labels

theorem placeholders_labelPieces (labels : List String) :
    Piece.placeholders (labelPieces labels) = [] := by
  simp [labelPieces, Piece.placeholders_flatMap]

theorem wellSpaced_typePieces (types : List String) :
    WellSpaced (typePieces types) ∧ startsApart (typePieces types) = true := by
  cases types with
  | nil => exact ⟨trivial, rfl⟩
  | cons first rest =>
      have hrest := Piece.wellSpaced_flatMap
        (f := fun type => [.word "|", .quoted .backtick type])
        (fun _ => .closed (by decide) (.apart rfl rfl trivial)) (fun _ => rfl) rest
      exact ⟨.closed (by decide) (.apart rfl hrest.2 hrest.1), rfl⟩

theorem placeholders_typePieces (types : List String) :
    Piece.placeholders (typePieces types) = [] := by
  cases types with
  | nil => rfl
  | cons first rest => simp [typePieces, Piece.placeholders_flatMap]

/-! ## Lengths -/

theorem isPlain_append {s t : String} (hs : (Piece.word s).isPlain = true)
    (ht : (Piece.word t).isPlain = true) : (Piece.word (s ++ t)).isPlain = true := by
  simp only [Piece.isPlain] at hs ht ⊢
  rw [String.toList_append, List.all_append, hs, ht]
  rfl

theorem isPlain_naturalText (n : Nat) : (Piece.word (Number.naturalText n)).isPlain = true := by
  refine isPlain_numeral ?_
  rw [Number.naturalText, String.toList_ofList]
  exact (Number.allDigits_digits n).isNumeral

theorem Length.isPlain_text (l : Length) : (Piece.word l.text).isPlain = true := by
  have hstar : (Piece.word "*").isPlain = true := by decide
  have hdots : (Piece.word "..").isPlain = true := by decide
  cases l with
  | any => exact hstar
  | exactly n => exact isPlain_append hstar (isPlain_naturalText n)
  | atLeast n => exact isPlain_append (isPlain_append hstar (isPlain_naturalText n)) hdots
  | atMost n => exact isPlain_append (by decide) (isPlain_naturalText n)
  | between low high =>
      have hlow := isPlain_append (isPlain_append hstar (isPlain_naturalText low)) hdots
      exact isPlain_append hlow (isPlain_naturalText high)

theorem Length.beginsApart_text (l : Length) : (Piece.word l.text).beginsApart = true := by
  have hstar : isDelimiter '*' = true := by decide
  have happend : ∀ s t : String, s.toList.head?.any isDelimiter = true →
      (s ++ t).toList.head?.any isDelimiter = true := by
    intro s t hs
    rw [String.toList_append]
    cases h : s.toList with
    | nil => rw [h] at hs; cases hs
    | cons c rest => rw [h] at hs; exact hs
  cases l with
  | any => exact hstar
  | exactly n => exact happend _ _ hstar
  | atLeast n => exact happend _ _ (happend _ _ hstar)
  | atMost n => exact happend _ _ hstar
  | between low high => exact happend _ _ (happend _ _ (happend _ _ hstar))

theorem Length.wellSpaced_pieces (l : Length) : WellSpaced l.pieces :=
  ⟨l.isPlain_text, fun _ => rfl, trivial⟩

theorem wellSpaced_lengthPieces (length : Option Length) :
    WellSpaced (lengthPieces length) ∧ startsApart (lengthPieces length) = true := by
  cases length with
  | none => exact ⟨trivial, rfl⟩
  | some l => exact ⟨l.wellSpaced_pieces, l.beginsApart_text⟩

theorem placeholders_lengthPieces (length : Option Length) :
    Piece.placeholders (lengthPieces length) = [] := by
  cases length <;> rfl

/-! ## Nodes, relationships and paths -/

theorem NodePattern.wellSpaced_pieces (n : NodePattern) : WellSpaced n.pieces := by
  have hvar := wellSpaced_variablePieces n.var
  have hlabels := wellSpaced_labelPieces n.labels
  have hproperties :=
    wellSpaced_propertyPieces (n.var.isSome || !n.labels.isEmpty) n.properties
  have hhead := WellSpaced.append (.closed (p := .word "(") (by decide) hvar) hlabels.1 hlabels.2
  exact (hhead.append hproperties.1 hproperties.2).append_word (by decide) (by decide)

theorem NodePattern.placeholders_pieces (n : NodePattern) :
    Piece.placeholders n.pieces = n.placeholders := by
  simp [NodePattern.pieces, NodePattern.placeholders, placeholders_variablePieces,
    placeholders_labelPieces, placeholders_propertyPieces]

theorem RelationshipPattern.wellSpaced_bodyPieces (r : RelationshipPattern) :
    WellSpaced r.bodyPieces := by
  have hvar := wellSpaced_variablePieces r.var
  have htypes := wellSpaced_typePieces r.types
  have hlength := wellSpaced_lengthPieces r.length
  have hproperties :=
    wellSpaced_propertyPieces (r.var.isSome || !r.types.isEmpty || r.length.isSome) r.properties
  have hhead := WellSpaced.append (.closed (p := .word "[") (by decide) hvar) htypes.1 htypes.2
  exact ((hhead.append hlength.1 hlength.2).append hproperties.1 hproperties.2).append_word
    (by decide) (by decide)

theorem RelationshipPattern.wellSpaced_pieces (r : RelationshipPattern) :
    WellSpaced r.pieces := by
  have htail : (Piece.word r.direction.tail).isClosed = true := by
    cases r.direction <;> decide
  have hhead : (Piece.word r.direction.head).isPlain = true ∧
      (Piece.word r.direction.head).beginsApart = true := by
    cases r.direction <;> decide
  have hbody : WellSpaced (if r.isBare then [] else r.bodyPieces) := by
    split
    · trivial
    · exact r.wellSpaced_bodyPieces
  exact WellSpaced.append_word (.closed htail hbody) hhead.1 hhead.2

theorem RelationshipPattern.startsApart_pieces (r : RelationshipPattern) :
    startsApart r.pieces = true := by
  show (Piece.word r.direction.tail).beginsApart = true
  cases r.direction <;> decide

theorem RelationshipPattern.placeholders_pieces (r : RelationshipPattern) :
    Piece.placeholders r.pieces = r.placeholders := by
  have hbody : Piece.placeholders (if r.isBare then [] else r.bodyPieces) = r.placeholders := by
    split
    · next hbare =>
        have hproperties : r.properties = [] :=
          List.isEmpty_iff.1 (Bool.and_eq_true_iff.1 hbare).2
        rw [RelationshipPattern.placeholders, hproperties]
        rfl
    · simp [RelationshipPattern.bodyPieces, RelationshipPattern.placeholders,
        placeholders_variablePieces, placeholders_typePieces, placeholders_lengthPieces,
        placeholders_propertyPieces]
  simp [RelationshipPattern.pieces, hbody]

theorem Path.wellSpaced_pieces (p : Path) : WellSpaced p.pieces := by
  have hsteps := Piece.wellSpaced_flatMap
    (f := fun step : RelationshipPattern × NodePattern => step.1.pieces ++ step.2.pieces)
    (fun step => step.1.wellSpaced_pieces.append step.2.wellSpaced_pieces rfl)
    (fun step => Piece.startsApart_append step.1.startsApart_pieces rfl) p.steps
  exact p.start.wellSpaced_pieces.append hsteps.1 hsteps.2

theorem Path.placeholders_pieces (p : Path) : Piece.placeholders p.pieces = p.placeholders := by
  simp [Path.pieces, Path.placeholders, Piece.placeholders_flatMap,
    NodePattern.placeholders_pieces, RelationshipPattern.placeholders_pieces]

end GraphQuery
