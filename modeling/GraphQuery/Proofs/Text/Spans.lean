import GraphQuery.Identifier
import GraphQuery.Text.Quoted

/-!
# Reading the spans of a text

A reader of query text first has to know which characters stand inside quotes.
`atoms?` reads a text from left to right into atoms: a quote mark opens a span,
which ends at the first mark that no second mark follows, and every character
outside the spans is an atom of its own. A text with a span that never ends has no
atoms. `parameters` then finds the names behind the dollar signs outside the spans.

Main statement: `atoms?_write`, a list of atoms that can be told apart is recovered
from its written form.
-/

set_option autoImplicit false

namespace GraphQuery.Text

/-- The quote that a character opens, if it is a quote mark. -/
def Quote.ofMark? (c : Char) : Option Quote :=
  if c = Quote.backtick.mark then some .backtick
  else if c = Quote.double.mark then some .double
  else none

/-- Units of a text: a character outside quotes, or a quoted span by its content. -/
inductive Atom where
  | bare (c : Char)
  | span (quote : Quote) (content : List Char)
  deriving DecidableEq

namespace Quote

theorem ofMark?_mark (q : Quote) : ofMark? q.mark = some q := by
  cases q <;> rfl

/-- The mark tells the quote. -/
theorem mark_injective {q r : Quote} (h : q.mark = r.mark) : q = r := by
  have hq := ofMark?_mark q
  rw [h, ofMark?_mark r] at hq
  exact (Option.some.inj hq).symm

/-- Scanning a span uses up its closing mark at least. -/
theorem length_of_scan? {q : Quote} {s content left : List Char}
    (h : q.scan? s = some (content, left)) : left.length < s.length := by
  -- a mark written twice leaves two characters less, any other character one less
  fun_induction scan? q s generalizing content left with
  | case1 => simp at h
  | case2 =>
      simp only [Option.some.injEq, Prod.mk.injEq] at h
      simp [← h.2]
  | case3 => simp at h
  | case4 rest ih =>
      obtain ⟨⟨_, tail⟩, ht, he⟩ := Option.map_eq_some_iff.1 h
      have := ih ht
      simp only [Prod.mk.injEq] at he
      simp only [List.length_cons, ← he.2]
      omega
  | case5 d rest =>
      simp only [Option.some.injEq, Prod.mk.injEq] at h
      simp [← h.2]
  | case6 c d rest _ ih =>
      obtain ⟨⟨_, tail⟩, ht, he⟩ := Option.map_eq_some_iff.1 h
      have := ih ht
      simp only [Prod.mk.injEq] at he
      simp only [List.length_cons, ← he.2] at this ⊢
      omega

end Quote

/-- Atoms of a text, `none` if a span never ends. -/
def atoms? (text : List Char) : Option (List Atom) :=
  match text with
  | [] => some []
  | c :: rest =>
      match Quote.ofMark? c with
      | none => (atoms? rest).map (.bare c :: ·)
      | some q =>
          match _h : q.scan? rest with
          | none => none
          | some (content, left) => (atoms? left).map (.span q content :: ·)
termination_by text.length
decreasing_by
  · simp
  · have := Quote.length_of_scan? _h
    simp only [List.length_cons]
    omega

namespace Atom

/-- Written form of an atom. -/
def write : Atom → List Char
  | bare c => [c]
  | span q content => q.mark :: q.doubled content ++ [q.mark]

/-- Whether an atom is a span in the given quotes. -/
def isSpanIn (q : Quote) : Atom → Bool
  | bare _ => false
  | span r _ => r = q

/-- Atoms whose written forms a reader can tell apart: no bare character is a quote
mark, and no span stands directly before another one in the same quotes. -/
def Separate : List Atom → Prop
  | [] => True
  | bare c :: rest => Quote.ofMark? c = none ∧ Separate rest
  | span q _ :: rest => rest.head?.any (isSpanIn q) = false ∧ Separate rest

/-- The longest run of identifier characters at the beginning. -/
def leadingName : List Atom → List Char
  | bare c :: rest => if isIdentifierPart c then c :: leadingName rest else []
  | _ => []

/-- Names of parameters in order: behind each dollar sign outside the spans, the
longest run of identifier characters. -/
def parameters : List Atom → List (List Char)
  | [] => []
  | bare c :: rest =>
      if c = '$' then leadingName rest :: parameters rest else parameters rest
  | span _ _ :: rest => parameters rest

end Atom

/-- Names of the parameters of a text, `none` if a span never ends. -/
def parameters? (text : String) : Option (List String) :=
  (atoms? text.toList).map fun as => (Atom.parameters as).map String.ofList

/-- A character outside spans is read as itself. -/
theorem atoms?_bare {c : Char} (h : Quote.ofMark? c = none) (text : List Char) :
    atoms? (c :: text) = (atoms? text).map (.bare c :: ·) := by
  rw [atoms?, h]

/-- A span is read as one atom, unless its own mark follows. -/
theorem atoms?_span (q : Quote) (content : List Char) {text : List Char}
    (h : text.head? ≠ some q.mark) :
    atoms? (q.mark :: q.doubled content ++ q.mark :: text) =
      (atoms? text).map (.span q content :: ·) := by
  have hs := q.scan?_doubled content text h
  rw [List.cons_append, atoms?, q.ofMark?_mark]
  simp only
  split
  · next hn => simp [hs] at hn
  · next content' left hl =>
      rw [hs] at hl
      simp only [Option.some.injEq, Prod.mk.injEq] at hl
      rw [hl.1, hl.2]

/-- The written form of separate atoms begins with a mark only if they begin with a
span in its quotes. -/
theorem head?_write_ne {q : Quote} {as : List Atom} (hs : Atom.Separate as)
    (h : as.head?.any (Atom.isSpanIn q) = false) :
    (as.flatMap Atom.write).head? ≠ some q.mark := by
  cases as with
  | nil => simp
  | cons a rest =>
      cases a with
      | bare c =>
          intro hc
          have hcq : c = q.mark := by simpa [Atom.write] using hc
          have := hs.1
          rw [hcq, q.ofMark?_mark] at this
          cases this
      | span r content =>
          intro hc
          have hrq : r.mark = q.mark := by simpa [Atom.write] using hc
          have hr : r ≠ q := by simpa [Atom.isSpanIn] using h
          exact hr (Quote.mark_injective hrq)

/-- Separate atoms are recovered from their written form. -/
theorem atoms?_write {as : List Atom} (hs : Atom.Separate as) :
    atoms? (as.flatMap Atom.write) = some as := by
  induction as with
  | nil => rw [List.flatMap_nil, atoms?]
  | cons a rest ih =>
      cases a with
      | bare c =>
          have hrest := ih hs.2
          rw [List.flatMap_cons, Atom.write, List.singleton_append, atoms?_bare hs.1, hrest]
          rfl
      | span q content =>
          have hrest := ih hs.2
          have hhead := head?_write_ne hs.2 hs.1
          rw [List.flatMap_cons, Atom.write, List.append_assoc, List.singleton_append,
            atoms?_span q content hhead, hrest]
          rfl

end GraphQuery.Text
