import GraphQuery.Proofs.Merging.Supply
import GraphQuery.Proofs.Renaming.Syntax
import GraphQuery.Proofs.Rendering.Fragment

/-!
# Renaming in the text

Parameters can be renamed without knowledge of the fragment that a text comes from: behind
every dollar sign outside the quotes the longest run of identifier characters is replaced.
Whatever stands in quotes stays, dollar signs included.

Main statements: `Piece.renameParameters_write`, renaming in the text of well spaced pieces
is renaming their placeholders, and `Fragment.text_mapPlaceholders`, the text of a renamed
fragment from that of the fragment by itself.
-/

set_option autoImplicit false

namespace GraphQuery

namespace Text

namespace Atom

/-- The text of atoms with the name behind every dollar sign replaced. While `skips` holds,
what is left of an old name is passed over. -/
def renamed (r : String → String) (skips : Bool) : List Atom → List Char
  | [] => []
  | span q content :: rest => write (span q content) ++ renamed r false rest
  | bare c :: rest =>
      if skips && isIdentifierPart c then renamed r true rest
      else if c = '$' then
        '$' :: (r (String.ofList (leadingName rest))).toList ++ renamed r true rest
      else c :: renamed r false rest

end Atom

/-- The text with its parameters renamed. A text with a span that never ends stays. -/
def renameParameters (r : String → String) (text : String) : String :=
  match atoms? text.toList with
  | some as => String.ofList (Atom.renamed r false as)
  | none => text

/-- Dollar signs in quotes begin no parameter. -/
example : renameParameters (· ++ "0") "f($x, \"$x\", $y)" = "f($x0, \"$x\", $y0)" := by
  decide +kernel

end Text

open Text (Atom)

namespace Piece

variable {r : String → String}

/-- Behind a dollar sign the name that follows is renamed. -/
theorem renamed_dollar (as : List Atom) :
    Atom.renamed r false (.bare '$' :: as) =
      '$' :: (r (String.ofList (Atom.leadingName as))).toList ++ Atom.renamed r true as := by
  rw [Atom.renamed, Bool.false_and, if_neg Bool.false_ne_true, if_pos rfl]

/-- Plain characters are copied. -/
theorem renamed_plain_append {cs : List Char} (hcs : ∀ c ∈ cs, GraphQuery.isPlain c = true)
    (as : List Atom) :
    Atom.renamed r false (cs.map .bare ++ as) = cs ++ Atom.renamed r false as := by
  induction cs with
  | nil => rfl
  | cons c rest ih =>
      have hne : c ≠ '$' := by simpa using (Bool.and_eq_true_iff.1 (hcs c List.mem_cons_self)).2
      have hrest := ih fun d hd => hcs d (List.mem_cons_of_mem c hd)
      show (if c = '$' then _ else c :: Atom.renamed r false (rest.map .bare ++ as)) = _
      rw [if_neg hne, hrest]
      rfl

/-- An old name is passed over up to the delimiter behind it. -/
theorem renamed_name_append {name : List Char} (hname : ∀ c ∈ name, isIdentifierPart c = true)
    {as : List Atom} (has : Delimited as) :
    Atom.renamed r true (name.map .bare ++ as) = Atom.renamed r false as := by
  induction name with
  | nil =>
      cases as with
      | nil => rfl
      | cons a rest =>
          cases a with
          | span q content => exact has.elim
          | bare c =>
              have hpart := not_isIdentifierPart_of_isDelimiter has
              show (if (true && isIdentifierPart c) = true then _ else _) = _
              rw [hpart]
              rfl
  | cons c rest ih =>
      have hpart := hname c List.mem_cons_self
      show (if (true && isIdentifierPart c) = true then
        Atom.renamed r true (rest.map .bare ++ as) else _) = _
      rw [hpart]
      exact ih fun d hd => hname d (List.mem_cons_of_mem c hd)

/-- A piece that is no placeholder is not renamed. -/
theorem edit_of_placeholder?_eq_none {f : Placeholder → Placeholder} {p : Piece}
    (h : p.placeholder? = none) : p.edit (.ofPlaceholders f) = p := by
  cases p with
  | placeholder p => cases h
  | word _ | name _ | selector _ | quoted _ _ | gap | lineBreak | openBody | closeBody => rfl

/-- Renaming the parameters among the atoms of well spaced pieces renames the placeholders. -/
theorem renamed_atoms {f : Placeholder → Placeholder}
    (hf : ∀ p, (f p).name.text = r p.name.text) {ps : List Piece} (hw : WellSpaced ps)
    (layout : Layout) (depth : Nat) :
    Atom.renamed r false (atoms layout depth ps) =
      (atoms layout depth (ps.map (edit (.ofPlaceholders f)))).flatMap Atom.write := by
  induction ps generalizing depth with
  | nil => rfl
  | cons p rest ih =>
      have hrest := ih hw.2.2 (p.depthAfter depth)
      rcases atomsAt_cases hw.1 layout depth with
        ⟨cs, hcs, hplain, hnone, -⟩ | ⟨q, content, rfl⟩ | ⟨p, rfl⟩
      · rw [List.map_cons, edit_of_placeholder?_eq_none hnone, atoms, atoms, hcs,
          renamed_plain_append hplain, List.flatMap_append, flatMap_write_bare, hrest]
      · exact congrArg (Atom.write (.span q content.toList) ++ ·) hrest
      · -- the old name ends at the delimiter behind the placeholder, as in reading the text
        have hname := p.name.isIdentifierPart_of_mem
        have hdelimited := delimited_atoms hw.2.2 (hw.2.1 rfl) layout depth
        have hold : atoms layout depth (.placeholder p :: rest) =
            .bare '$' :: (p.name.text.toList.map .bare ++ atoms layout depth rest) := rfl
        have hnew : atoms layout depth ((Piece.placeholder p :: rest).map
            (edit (.ofPlaceholders f))) = ('$' :: (f p).name.text.toList).map .bare ++
              atoms layout depth (rest.map (edit (.ofPlaceholders f))) := rfl
        have hrest : Atom.renamed r false (atoms layout depth rest) = _ := hrest
        rw [hold, hnew, renamed_dollar, leadingName_append hname hdelimited,
          renamed_name_append hname hdelimited, String.ofList_toList, ← hf,
          List.flatMap_append, flatMap_write_bare, hrest]
        rfl

/-- Renaming the parameters in the text of well spaced pieces renames the placeholders. -/
theorem renameParameters_write {f : Placeholder → Placeholder}
    (hf : ∀ p, (f p).name.text = r p.name.text) {ps : List Piece} (hw : WellSpaced ps)
    (layout : Layout) :
    Text.renameParameters r (String.ofList (write layout 0 ps)) =
      String.ofList (write layout 0 (ps.map (edit (.ofPlaceholders f)))) := by
  rw [Text.renameParameters, atoms?_write hw]
  dsimp only
  rw [renamed_atoms hf hw, flatMap_write_atoms]

/-! ## Renumbered selectors -/

/-- Edited pieces are well spaced, since an edit keeps how a piece begins and ends. -/
theorem WellSpaced.map_edit (φ : Edit) {ps : List Piece} (hw : WellSpaced ps) :
    WellSpaced (ps.map (edit φ)) := by
  have hstarts (ps : List Piece) : startsApart (ps.map (edit φ)) = startsApart ps := by
    cases ps with
    | nil => rfl
    | cons p rest => cases p <;> rfl
  induction ps with
  | nil => trivial
  | cons p rest ih =>
      obtain ⟨hplain, hopen, hrest⟩ := hw
      refine ⟨?_, ?_, ih hrest⟩
      · cases p <;> exact hplain
      · intro hends
        rw [hstarts]
        apply hopen
        cases p <;> exact hends

theorem edit_ofNames (f : Placeholder → Placeholder) (g : Identifier → Identifier) :
    edit (.ofNames f g) = edit (.ofPlaceholders f) ∘ edit (.ofSelectors g) := by
  funext p
  cases p <;> rfl

end Piece

namespace NameSupply

/-- The next names of one supply replaced by the next names of another. -/
def renumber (own names : NameSupply) : Nat → Identifier → Identifier
  | 0, id => id
  | draws + 1, id =>
      if id = own.next then names.next else own.advance.renumber names.advance draws id

/-- Renumbering a supply on itself changes nothing. -/
theorem renumber_self (own : NameSupply) (draws : Nat) : own.renumber own draws = id := by
  induction draws generalizing own with
  | zero => rfl
  | succ draws ih =>
      funext id
      rw [renumber, ih]
      split
      · next h => exact h.symm
      · rfl

/-- Renumbering takes the draws of one supply to those of the other. -/
theorem redraws_renumber (own names : NameSupply) (draws : Nat) :
    Redraws (own.renumber names draws) own names draws := by
  induction draws generalizing own names with
  | zero => intro k hk; omega
  | succ draws ih =>
      intro k hk
      cases k with
      | zero => exact if_pos rfl
      | succ k =>
          -- different numbers give different names, so only one entry applies
          have hne : own.stem.numbered (own.issued + (k + 1)) ≠ own.next := by
            intro heq
            have := Identifier.numbered_injective heq
            omega
          have hrest := ih own.advance names.advance k (by omega)
          rw [renumber, if_neg hne]
          have hown : own.advance.issued + k = own.issued + (k + 1) := by
            simp [advance]
            omega
          have hnames : names.advance.issued + k = names.issued + (k + 1) := by
            simp [advance]
            omega
          rw [hown, hnames] at hrest
          exact hrest

end NameSupply

namespace Fragment

/-- The text of a fragment that is rendered by itself from the supply `own`, with the
selectors drawn from there replaced by those that `names` would have given. -/
def renumberedText (layout : Layout) (own names : NameSupply) (a : Fragment) : String :=
  String.ofList (Piece.write layout 0 ((a.pieces own).1.map
    (Piece.edit (.ofSelectors (own.renumber names a.choiceCount)))))

/-- Where both supplies are the same, the text is the one that rendering gives. -/
theorem renumberedText_self (a : Fragment) (layout : Layout) (own : NameSupply) :
    a.renumberedText layout own own = (a.render layout own).1.text := by
  have hkeep : Piece.edit (.ofSelectors (own.renumber own a.choiceCount)) = id := by
    rw [own.renumber_self]
    funext p
    cases p <;> rfl
  rw [renumberedText, hkeep, List.map_id]
  rfl

/-- The text of a renamed fragment is the text that the fragment has by itself, with its
selectors renumbered and its parameters renamed. -/
theorem text_mapPlaceholders {r : String → String} {f : Placeholder → Placeholder}
    (hf : ∀ p, (f p).name.text = r p.name.text) (a : Fragment) (layout : Layout)
    (own names : NameSupply) :
    ((a.mapPlaceholders f).render layout names).1.text =
      Text.renameParameters r (a.renumberedText layout own names) := by
  have hpieces := congrArg Prod.fst (a.pieces_edit
    (.ofNames f (own.renumber names a.choiceCount)) (own.redraws_renumber names a.choiceCount))
  rw [← a.mapPlaceholders_eq_edit, Piece.edit_ofNames, ← List.map_map] at hpieces
  have hspaced := (a.wellSpaced_pieces own).map_edit
    (.ofSelectors (own.renumber names a.choiceCount))
  rw [renumberedText, Piece.renameParameters_write hf hspaced]
  exact congrArg (fun ps => String.ofList (Piece.write layout 0 ps)) hpieces

/-- Renaming leaves the number of conditionals as it is. -/
theorem choiceCount_mapPlaceholders (f : Placeholder → Placeholder) (a : Fragment) :
    (a.mapPlaceholders f).choiceCount = a.choiceCount := by
  -- the count shows in the supply that a rendering leaves behind
  have hsupply := congrArg Prod.snd (a.pieces_edit (.ofPlaceholders f) (.refl .fresh a.choiceCount))
  rw [Edit.ofPlaceholders, ← a.mapPlaceholders_eq_edit, supply_pieces] at hsupply
  have hissued := congrArg NameSupply.issued hsupply
  simpa [NameSupply.after] using hissued

end Fragment

end GraphQuery
