import GraphQuery.Proofs.Quoting.Quotations
import GraphQuery.Proofs.Rendering.Edited
import GraphQuery.Proofs.Rendering.Fragment

/-!
# Quoted strings stay in their quotes

A reader who knows only the rule of the doubled mark divides a rendered text into spans
and the text between them. Whatever strings a user puts into a query, the spans are those
strings, and the text between the spans does not depend on them: two fragments that agree
once all quotes are emptied have the same text outside the quotes.

Main statement: `Fragment.spans_render`.
-/

set_option autoImplicit false

namespace GraphQuery

namespace Text

namespace Atom

/-- The quotes and the content of a span. -/
def span? : Atom → Option (Quote × String)
  | bare _ => none
  | span q content => some (q, String.ofList content)

/-- The text between the spans: what stands before the first one, between each two, and
behind the last one. -/
def gaps : List Atom → List (List Char)
  | [] => [[]]
  | bare c :: rest => (gaps rest).modifyHead (c :: ·)
  | span .. :: rest => [] :: gaps rest

/-- The atom without the content of a span. -/
def blank : Atom → Atom
  | bare c => bare c
  | span q _ => span q []

/-- Blanking spans leaves the gaps between them as they are. -/
theorem gaps_map_blank (as : List Atom) : gaps (as.map blank) = gaps as := by
  induction as with
  | nil => rfl
  | cons a rest ih =>
      cases a with
      | bare c => exact congrArg (List.modifyHead (c :: ·)) ih
      | span q content => exact congrArg ([] :: ·) ih

theorem map_blank_bare (cs : List Char) : (cs.map bare).map blank = cs.map bare := by
  rw [List.map_map]
  rfl

theorem filterMap_span?_bare (cs : List Char) : (cs.map bare).filterMap span? = [] := by
  rw [List.filterMap_map]
  exact List.filterMap_eq_nil_iff.2 fun _ _ => rfl

end Atom

/-- Spans of a text in order, by their quotes and contents; `none` if a span never ends. -/
def spans? (text : String) : Option (List (Quote × String)) :=
  (atoms? text.toList).map (List.filterMap Atom.span?)

/-- The text between the spans of a text; `none` if a span never ends. -/
def gaps? (text : String) : Option (List String) :=
  (atoms? text.toList).map fun as => (Atom.gaps as).map String.ofList

end Text

open Text (Atom)

namespace Piece

/-- A piece has a span if it is quoted, whatever the layout. -/
theorem filterMap_span?_atomsAt (p : Piece) (layout : Layout) (depth : Nat) :
    (p.atomsAt layout depth).filterMap Atom.span? = p.quotation?.toList := by
  cases p with
  | quoted quote content => exact congrArg (fun s => [(quote, s)]) String.ofList_toList
  | placeholder r => exact Atom.filterMap_span?_bare ('$' :: r.name.text.toList)
  | gap => exact Atom.filterMap_span?_bare [' ']
  | word _ | name _ | selector _ | lineBreak | openBody | closeBody =>
      exact Atom.filterMap_span?_bare _

/-- The spans among the atoms of pieces are the quotations among the pieces. -/
theorem filterMap_span?_atoms (layout : Layout) (depth : Nat) (ps : List Piece) :
    (atoms layout depth ps).filterMap Atom.span? = quotations ps := by
  induction ps generalizing depth with
  | nil => rfl
  | cons p rest ih =>
      rw [atoms, List.filterMap_append, filterMap_span?_atomsAt, ih, quotations_cons]

/-- Blanking a piece blanks its span. -/
theorem atomsAt_blank (p : Piece) (layout : Layout) (depth : Nat) :
    (p.edit .blank).atomsAt layout depth = (p.atomsAt layout depth).map Atom.blank := by
  cases p with
  | quoted quote content => rfl
  | placeholder r => exact (Atom.map_blank_bare ('$' :: r.name.text.toList)).symm
  | gap => rfl
  | word _ | name _ | selector _ | lineBreak | openBody | closeBody =>
      exact (Atom.map_blank_bare _).symm

/-- Emptying the quotes among the pieces empties the spans among the atoms. -/
theorem atoms_blank (layout : Layout) (depth : Nat) (ps : List Piece) :
    atoms layout depth (ps.map (edit .blank)) = (atoms layout depth ps).map Atom.blank := by
  induction ps generalizing depth with
  | nil => rfl
  | cons p rest ih =>
      have hdepth : (p.edit .blank).depthAfter depth = p.depthAfter depth := by
        cases p <;> rfl
      rw [List.map_cons, atoms, atoms, atomsAt_blank, hdepth, ih, List.map_append]

end Piece

namespace Fragment

/-- The fragment with all its quotes emptied. Fragments that are the same then differ only
in the contents of their quotes. -/
def blank (f : Fragment) : Fragment := f.edit .blank

/-- A text is read as the atoms of its pieces. -/
theorem atoms?_render (f : Fragment) (layout : Layout) (supply : NameSupply) :
    Text.atoms? (f.render layout supply).1.text.toList =
      some (Piece.atoms layout 0 (f.pieces supply).1) :=
  Piece.atoms?_write (f.wellSpaced_pieces supply) layout

/-- The pieces of a fragment with blanked quotations are its own, blanked. -/
theorem pieces_blank (f : Fragment) (supply : NameSupply) :
    (f.blank.pieces supply).1 = (f.pieces supply).1.map (Piece.edit .blank) :=
  congrArg Prod.fst (f.pieces_edit .blank (.refl supply f.choiceCount))

/-- Fragments with the same shape have the same text outside their quotes. -/
theorem gaps_of_blank_eq {f g : Fragment} (h : g.blank = f.blank) (layout : Layout)
    (supply : NameSupply) :
    Atom.gaps (Piece.atoms layout 0 (g.pieces supply).1) =
      Atom.gaps (Piece.atoms layout 0 (f.pieces supply).1) := by
  rw [← Atom.gaps_map_blank, ← Piece.atoms_blank, ← g.pieces_blank, h, f.pieces_blank,
    Piece.atoms_blank, Atom.gaps_map_blank]

/-- Every span of a rendered text ends, and the spans hold the quotations of the fragment
in order, unchanged. The text between the spans is the same for all fragments that differ
only in the contents of their quotes. -/
theorem spans_render (f : Fragment) (layout : Layout) (supply : NameSupply) :
    Text.spans? (f.render layout supply).1.text = some f.quotations ∧
    ∀ g : Fragment, g.blank = f.blank →
      Text.gaps? (g.render layout supply).1.text = Text.gaps? (f.render layout supply).1.text := by
  constructor
  · rw [Text.spans?, f.atoms?_render, Option.map_some, Piece.filterMap_span?_atoms,
      f.quotations_pieces]
  · intro g hblank
    rw [Text.gaps?, Text.gaps?, g.atoms?_render, f.atoms?_render, Option.map_some,
      Option.map_some, gaps_of_blank_eq hblank]

namespace Sample

/-- A node with a label and a property. -/
def node (label key value : String) : Fragment :=
  .node ⟨none, [label], [(key, .literal (.string value))]⟩

end Sample

/-- Marks of both kinds, a line end and a parameter inside the quotes change nothing
outside them. -/
theorem spans_render_hostile :
    (Sample.node "Person" "name" "Ann").blank =
      (Sample.node "a\x60b" "" "\"\n\x60 $x \x7d").blank ∧
    Text.spans? ((Sample.node "a\x60b" "" "\"\n\x60 $x \x7d").render .pretty .fresh).1.text =
      some [(.backtick, "a\x60b"), (.backtick, ""), (.double, "\"\n\x60 $x \x7d")] ∧
    Text.gaps? ((Sample.node "Person" "name" "Ann").render .pretty .fresh).1.text =
      Text.gaps? ((Sample.node "a\x60b" "" "\"\n\x60 $x \x7d").render .pretty .fresh).1.text :=
  have hostile := spans_render (Sample.node "a\x60b" "" "\"\n\x60 $x \x7d") .pretty .fresh
  ⟨rfl, hostile.1, hostile.2 (Sample.node "Person" "name" "Ann") rfl⟩

end Fragment

end GraphQuery
