import GraphQuery.NameSupply
import GraphQuery.Proofs.Text.Spans
import GraphQuery.Rendering.Expr

/-!
# Pieces that stand apart

Written pieces run together in a text. A reader finds the pieces again if no piece
grows into the next one: behind a name, a placeholder, a quoted span or a word that
ends like a name there has to stand a delimiter, a character that neither is a part
of identifiers nor begins a span or a placeholder. Lists of pieces in which this
holds are well spaced.

Main statements: `separate_atoms` and `parameters?_write`. The atoms of a well spaced
list are recovered from its text, and the dollar signs in them name its placeholders.
-/

set_option autoImplicit false

namespace GraphQuery

open Text (Atom)

/-- Characters that begin neither a span nor a placeholder. -/
def isPlain (c : Char) : Bool := (Text.Quote.ofMark? c).isNone && c != '$'

/-- Plain characters that are no part of identifiers. -/
def isDelimiter (c : Char) : Bool := isPlain c && !isIdentifierPart c

theorem isIdentifierPart_of_isDigit {c : Char} (h : c.isDigit = true) :
    isIdentifierPart c = true := by
  simp [isIdentifierPart, isNumeral_of_isDigit h]

theorem isPlain_of_isIdentifierPart {c : Char} (h : isIdentifierPart c = true) :
    isPlain c = true := by
  have hne : ∀ mark, isIdentifierPart mark = false → c ≠ mark := by
    intro mark hm hc
    rw [hc, hm] at h
    cases h
  have hdollar := hne '$' (by decide)
  have hbacktick := hne Text.Quote.backtick.mark (by decide)
  have hdouble := hne Text.Quote.double.mark (by decide)
  simp [isPlain, Text.Quote.ofMark?, hdollar, hbacktick, hdouble]

theorem not_isIdentifierPart_of_isDelimiter {c : Char} (h : isDelimiter c = true) :
    isIdentifierPart c = false := by
  simpa using (Bool.and_eq_true_iff.1 h).2

/-- All characters of an identifier are parts of identifiers. -/
theorem Identifier.isIdentifierPart_of_mem (id : Identifier) :
    ∀ c ∈ id.text.toList, isIdentifierPart c = true := by
  have hlegal := id.legal
  cases htext : id.text.toList with
  | nil => intro c hc; cases hc
  | cons first rest =>
      rw [htext, isIdentifier, Bool.and_eq_true] at hlegal
      intro c hc
      rcases List.mem_cons.1 hc with rfl | h
      · have hstart := hlegal.1
        simp only [isIdentifierStart, Bool.or_eq_true] at hstart
        rcases hstart with h | h <;> simp [isIdentifierPart, h]
      · exact List.all_eq_true.1 hlegal.2 c h

/-- A line break consists of delimiters. -/
theorem Layout.isDelimiter_lineBreak (layout : Layout) (depth : Nat) :
    ∀ c ∈ layout.lineBreak depth, isDelimiter c = true := by
  intro c hc
  cases layout with
  | compact =>
      rw [List.mem_singleton.1 hc]
      decide
  | pretty =>
      rcases List.mem_cons.1 hc with rfl | h
      · decide
      · rw [List.eq_of_mem_replicate h]
        decide

theorem Layout.plain_lineBreak (layout : Layout) (depth : Nat) :
    ∀ c ∈ layout.lineBreak depth, isPlain c = true :=
  fun c hc => (Bool.and_eq_true_iff.1 (layout.isDelimiter_lineBreak depth c hc)).1

theorem Layout.not_isIdentifierPart_lineBreak (layout : Layout) (depth : Nat) :
    ∀ c ∈ layout.lineBreak depth, isIdentifierPart c = false :=
  fun c hc => not_isIdentifierPart_of_isDelimiter (layout.isDelimiter_lineBreak depth c hc)

theorem Layout.head_lineBreak (layout : Layout) (depth : Nat) :
    (layout.lineBreak depth).head?.any isDelimiter = true := by
  have hspace : isDelimiter ' ' = true := by decide
  have hline : isDelimiter '\n' = true := by decide
  cases layout with
  | compact => exact hspace
  | pretty => exact hline

namespace Piece

/-! ## Well spaced lists of pieces -/

/-- Whether the words of a piece consist of plain characters. -/
def isPlain : Piece → Bool
  | .word text => text.toList.all GraphQuery.isPlain
  | _ => true

/-- Whether a piece could grow into what stands behind it. -/
def endsOpen : Piece → Bool
  | .word text => text.toList.getLast?.any isIdentifierPart
  | .name _ => true
  | .selector _ => true
  | .quoted .. => true
  | .placeholder _ => true
  | _ => false

/-- Whether a piece is plain and grows into nothing. -/
def isClosed (p : Piece) : Bool := p.isPlain && !p.endsOpen

/-- Whether a piece begins with a delimiter. -/
def beginsApart : Piece → Bool
  | .word text => text.toList.head?.any isDelimiter
  | .gap => true
  | .lineBreak => true
  | .closeBody => true
  | _ => false

/-- Whether a list of pieces begins with a delimiter, if with anything. -/
def startsApart : List Piece → Bool
  | [] => true
  | p :: _ => p.beginsApart

/-- No piece grows into the one behind it. -/
def WellSpaced : List Piece → Prop
  | [] => True
  | p :: rest =>
      p.isPlain = true ∧ (p.endsOpen = true → startsApart rest = true) ∧ WellSpaced rest

theorem startsApart_append {xs ys : List Piece} (hx : startsApart xs = true)
    (hy : startsApart ys = true) : startsApart (xs ++ ys) = true := by
  cases xs with
  | nil => exact hy
  | cons p rest => exact hx

theorem WellSpaced.append {xs ys : List Piece} (hx : WellSpaced xs) (hy : WellSpaced ys)
    (hs : startsApart ys = true) : WellSpaced (xs ++ ys) := by
  induction xs with
  | nil => exact hy
  | cons p rest ih =>
      exact ⟨hx.1, fun ho => startsApart_append (hx.2.1 ho) hs, ih hx.2.2⟩

theorem WellSpaced.closed {p : Piece} {rest : List Piece} (hp : p.isClosed = true)
    (hrest : WellSpaced rest) : WellSpaced (p :: rest) := by
  have hclosed := Bool.and_eq_true_iff.1 hp
  refine ⟨hclosed.1, fun ho => ?_, hrest⟩
  rw [ho] at hclosed
  cases hclosed.2

theorem WellSpaced.apart {p : Piece} {rest : List Piece} (hp : p.isPlain = true)
    (hs : startsApart rest = true) (hrest : WellSpaced rest) : WellSpaced (p :: rest) :=
  ⟨hp, fun _ => hs, hrest⟩

/-- A last word may end in any way. -/
theorem WellSpaced.append_word {xs : List Piece} (hx : WellSpaced xs) {text : String}
    (hp : (Piece.word text).isPlain = true) (hs : (Piece.word text).beginsApart = true) :
    WellSpaced (xs ++ [.word text]) :=
  hx.append ⟨hp, fun _ => rfl, trivial⟩ hs

theorem WellSpaced.parenthesized (needed : Bool) {xs : List Piece} (hx : WellSpaced xs) :
    WellSpaced (parenthesized needed xs) := by
  cases needed with
  | false => exact hx
  | true => exact WellSpaced.closed (by decide) (hx.append_word (by decide) (by decide))

/-! ## Atoms of pieces -/

/-- Atoms of a piece that stands at the given depth. -/
def atomsAt (layout : Layout) (depth : Nat) : Piece → List Atom
  | .word text => text.toList.map .bare
  | .name id => id.text.toList.map .bare
  | .selector id => id.text.toList.map .bare
  | .quoted quote content => [.span quote content.toList]
  | .placeholder p => .bare '$' :: p.name.text.toList.map .bare
  | .gap => [.bare ' ']
  | .lineBreak => (layout.lineBreak depth).map .bare
  | .openBody => ("CALL \x7b".toList ++ layout.lineBreak (depth + 1)).map .bare
  | .closeBody => (layout.lineBreak (depth - 1) ++ ['\x7d']).map .bare

/-- The depth behind a piece. -/
def depthAfter (depth : Nat) : Piece → Nat
  | .openBody => depth + 1
  | .closeBody => depth - 1
  | _ => depth

/-- Atoms of pieces that begin at the given depth. -/
def atoms (layout : Layout) : Nat → List Piece → List Atom
  | _, [] => []
  | depth, p :: rest => p.atomsAt layout depth ++ atoms layout (p.depthAfter depth) rest

theorem flatMap_write_bare (cs : List Char) : (cs.map Atom.bare).flatMap Atom.write = cs := by
  induction cs with
  | nil => rfl
  | cons c rest ih => rw [List.map_cons, List.flatMap_cons, ih]; rfl

/-- The text of pieces is the written form of their atoms. -/
theorem flatMap_write_atoms (layout : Layout) (depth : Nat) (ps : List Piece) :
    (atoms layout depth ps).flatMap Atom.write = write layout depth ps := by
  induction ps generalizing depth with
  | nil => rfl
  | cons p rest ih =>
      rw [atoms, List.flatMap_append, ih]
      cases p with
      | quoted q content =>
          show (q.mark :: q.doubled content.toList ++ [q.mark] ++ []) ++ _ = _
          rw [List.append_nil]
          rfl
      | placeholder p =>
          exact congrArg (fun name => '$' :: name ++ write layout depth rest)
            (flatMap_write_bare p.name.text.toList)
      | closeBody =>
          have hbreak := flatMap_write_bare (layout.lineBreak (depth - 1) ++ ['\x7d'])
          refine (congrArg (· ++ write layout (depth - 1) rest) hbreak).trans ?_
          rw [List.append_assoc]
          rfl
      | gap => rfl
      | word _ | name _ | selector _ | lineBreak | openBody =>
          exact congrArg (· ++ write layout _ rest) (flatMap_write_bare _)

/-- Whether atoms begin with a delimiter, if with anything. -/
def Delimited : List Atom → Prop
  | [] => True
  | .bare c :: _ => isDelimiter c = true
  | .span .. :: _ => False

/-- A piece other than a span or a placeholder is written in plain characters. -/
theorem atomsAt_cases {p : Piece} (hp : p.isPlain = true) (layout : Layout) (depth : Nat) :
    (∃ cs : List Char, p.atomsAt layout depth = cs.map .bare ∧
      (∀ c ∈ cs, GraphQuery.isPlain c = true) ∧ p.placeholder? = none ∧
      (p.beginsApart = true → cs.head?.any isDelimiter = true)) ∨
    (∃ q content, p = .quoted q content) ∨ ∃ r, p = .placeholder r := by
  have hpart : ∀ id : Identifier, ∀ c ∈ id.text.toList, GraphQuery.isPlain c = true :=
    fun id c hc => isPlain_of_isIdentifierPart (id.isIdentifierPart_of_mem c hc)
  cases p with
  | word text => exact .inl ⟨text.toList, rfl, List.all_eq_true.1 hp, rfl, fun h => h⟩
  | name id => exact .inl ⟨id.text.toList, rfl, hpart id, rfl, by rintro ⟨⟩⟩
  | selector id => exact .inl ⟨id.text.toList, rfl, hpart id, rfl, by rintro ⟨⟩⟩
  | quoted q content => exact .inr (.inl ⟨q, content, rfl⟩)
  | placeholder r => exact .inr (.inr ⟨r, rfl⟩)
  | gap =>
      have hplain := Layout.plain_lineBreak .compact depth
      have hhead := Layout.head_lineBreak .compact depth
      exact .inl ⟨[' '], rfl, hplain, rfl, fun _ => hhead⟩
  | lineBreak =>
      have hhead := layout.head_lineBreak depth
      exact .inl ⟨_, rfl, layout.plain_lineBreak depth, rfl, fun _ => hhead⟩
  | openBody =>
      refine .inl ⟨_, rfl, fun c hc => ?_, rfl, by rintro ⟨⟩⟩
      rcases List.mem_append.1 hc with h | h
      · exact List.all_eq_true.1 (by decide) c h
      · exact layout.plain_lineBreak (depth + 1) c h
  | closeBody =>
      refine .inl ⟨_, rfl, fun c hc => ?_, rfl, fun _ => ?_⟩
      · rcases List.mem_append.1 hc with h | h
        · exact layout.plain_lineBreak (depth - 1) c h
        · rw [List.mem_singleton.1 h]
          decide
      · have hhead := layout.head_lineBreak (depth - 1)
        cases hbreak : layout.lineBreak (depth - 1) with
        | nil => rw [hbreak] at hhead; cases hhead
        | cons c rest => rw [hbreak] at hhead; exact hhead

theorem delimited_atoms {ps : List Piece} (hw : WellSpaced ps) (hs : startsApart ps = true)
    (layout : Layout) (depth : Nat) : Delimited (atoms layout depth ps) := by
  cases ps with
  | nil => trivial
  | cons p rest =>
      rcases atomsAt_cases hw.1 layout depth with
        ⟨cs, hcs, -, -, hhead⟩ | ⟨q, content, rfl⟩ | ⟨r, rfl⟩
      · have hdelimiter := hhead hs
        rw [atoms, hcs]
        cases cs with
        | nil => cases hdelimiter
        | cons c cs => exact hdelimiter
      · cases hs
      · cases hs

theorem separate_bare_append {cs : List Char} (hcs : ∀ c ∈ cs, GraphQuery.isPlain c = true)
    {as : List Atom} (has : Atom.Separate as) : Atom.Separate (cs.map .bare ++ as) := by
  induction cs with
  | nil => exact has
  | cons c rest ih =>
      have hplain := hcs c List.mem_cons_self
      refine ⟨?_, ih fun d hd => hcs d (List.mem_cons_of_mem c hd)⟩
      exact Option.isNone_iff_eq_none.1 (Bool.and_eq_true_iff.1 hplain).1

/-- Atoms of well spaced pieces can be told apart. -/
theorem separate_atoms {ps : List Piece} (hw : WellSpaced ps) (layout : Layout) (depth : Nat) :
    Atom.Separate (atoms layout depth ps) := by
  induction ps generalizing depth with
  | nil => trivial
  | cons p rest ih =>
      have hrest := ih hw.2.2 (p.depthAfter depth)
      rcases atomsAt_cases hw.1 layout depth with
        ⟨cs, hcs, hplain, -, -⟩ | ⟨q, content, rfl⟩ | ⟨r, rfl⟩
      · rw [atoms, hcs]
        exact separate_bare_append hplain hrest
      · -- a span grows into another span only, and behind it stands a delimiter
        have hdelimited := delimited_atoms hw.2.2 (hw.2.1 rfl) layout depth
        refine ⟨?_, hrest⟩
        show (atoms layout depth rest).head?.any (Atom.isSpanIn q) = false
        cases has : atoms layout depth rest with
        | nil => rfl
        | cons a as =>
            rw [has] at hdelimited
            cases a with
            | bare c => rfl
            | span r content => exact hdelimited.elim
      · have hname := r.name.isIdentifierPart_of_mem
        refine ⟨by decide, separate_bare_append (fun c hc => ?_) hrest⟩
        exact isPlain_of_isIdentifierPart (hname c hc)

/-! ## Layouts -/

/-- Whether a piece is written alike in every layout and at every depth. -/
@[simp]
def isInline : Piece → Bool
  | .lineBreak => false
  | .openBody => false
  | .closeBody => false
  | _ => true

@[simp]
theorem all_isInline_parenthesized (needed : Bool) (xs : List Piece) :
    (parenthesized needed xs).all isInline = xs.all isInline := by
  cases needed with
  | false => rfl
  | true => simp [parenthesized]

/-- Pieces on one line have the same text in all layouts. -/
theorem write_of_inline {ps : List Piece} (h : ps.all isInline = true) (layout : Layout)
    (depth : Nat) : write layout depth ps = write .compact 0 ps := by
  induction ps with
  | nil => rfl
  | cons p rest ih =>
      rw [List.all_cons, Bool.and_eq_true] at h
      have hrest := ih h.2
      cases p with
      | lineBreak | openBody | closeBody => cases h.1
      | gap => exact congrArg (' ' :: ·) hrest
      | placeholder r => exact congrArg (fun tail => '$' :: r.name.text.toList ++ tail) hrest
      | word _ | name _ | selector _ | quoted _ _ => exact congrArg (_ ++ ·) hrest

/-! ## Placeholders and parameters -/

attribute [simp] placeholder?

@[simp]
theorem placeholders_nil : placeholders [] = [] := rfl

@[simp]
theorem placeholders_cons (p : Piece) (rest : List Piece) :
    placeholders (p :: rest) = p.placeholder?.toList ++ placeholders rest := by
  unfold placeholders
  cases h : p.placeholder? with
  | none => rw [List.filterMap_cons_none h]; rfl
  | some r => rw [List.filterMap_cons_some h]; rfl

@[simp]
theorem placeholders_append (xs ys : List Piece) :
    placeholders (xs ++ ys) = placeholders xs ++ placeholders ys :=
  List.filterMap_append

@[simp]
theorem placeholders_parenthesized (needed : Bool) (xs : List Piece) :
    placeholders (parenthesized needed xs) = placeholders xs := by
  cases needed with
  | false => rfl
  | true => simp [parenthesized]

theorem leadingName_append {name : List Char} (hname : ∀ c ∈ name, isIdentifierPart c = true)
    {as : List Atom} (has : Delimited as) :
    Atom.leadingName (name.map .bare ++ as) = name := by
  induction name with
  | nil =>
      cases as with
      | nil => rfl
      | cons a as =>
          cases a with
          | bare c => exact if_neg (by simp [not_isIdentifierPart_of_isDelimiter has])
          | span q content => exact has.elim
  | cons c rest ih =>
      have hrest := ih fun d hd => hname d (List.mem_cons_of_mem c hd)
      show (if isIdentifierPart c then c :: Atom.leadingName (rest.map .bare ++ as) else _) = _
      rw [if_pos (hname c List.mem_cons_self), hrest]

theorem parameters_bare_append {cs : List Char} (hcs : ∀ c ∈ cs, GraphQuery.isPlain c = true)
    (as : List Atom) : Atom.parameters (cs.map .bare ++ as) = Atom.parameters as := by
  induction cs with
  | nil => rfl
  | cons c rest ih =>
      have hne : c ≠ '$' := by simpa using (Bool.and_eq_true_iff.1 (hcs c List.mem_cons_self)).2
      have hrest := ih fun d hd => hcs d (List.mem_cons_of_mem c hd)
      show (if c = '$' then _ else Atom.parameters (rest.map .bare ++ as)) = _
      rw [if_neg hne, hrest]

/-- The parameters of well spaced pieces are their placeholders. -/
theorem parameters_atoms {ps : List Piece} (hw : WellSpaced ps) (layout : Layout) (depth : Nat) :
    Atom.parameters (atoms layout depth ps) =
      (placeholders ps).map fun p => p.name.text.toList := by
  induction ps generalizing depth with
  | nil => rfl
  | cons p rest ih =>
      have hrest := ih hw.2.2 (p.depthAfter depth)
      rcases atomsAt_cases hw.1 layout depth with
        ⟨cs, hcs, hplain, hnone, -⟩ | ⟨q, content, rfl⟩ | ⟨r, rfl⟩
      · rw [atoms, hcs, parameters_bare_append hplain, hrest, placeholders_cons, hnone]
        rfl
      · exact hrest
      · -- the name behind the dollar sign ends at the delimiter behind the placeholder
        have hname := r.name.isIdentifierPart_of_mem
        have hdelimited := delimited_atoms hw.2.2 (hw.2.1 rfl) layout depth
        have hplain := fun c hc => isPlain_of_isIdentifierPart (hname c hc)
        show Atom.leadingName (r.name.text.toList.map .bare ++ atoms layout depth rest) ::
          Atom.parameters (r.name.text.toList.map .bare ++ atoms layout depth rest) = _
        rw [leadingName_append hname hdelimited, parameters_bare_append hplain]
        exact congrArg (r.name.text.toList :: ·) hrest

/-- The atoms of well spaced pieces are read off their text. -/
theorem atoms?_write {ps : List Piece} (hw : WellSpaced ps) (layout : Layout) :
    Text.atoms? (String.ofList (write layout 0 ps)).toList = some (atoms layout 0 ps) := by
  have hatoms := Text.atoms?_write (separate_atoms hw layout 0)
  rw [flatMap_write_atoms] at hatoms
  rw [String.toList_ofList, hatoms]

/-- The parameters found in the text of well spaced pieces are their placeholders,
in order and with repetitions. -/
theorem parameters?_write {ps : List Piece} (hw : WellSpaced ps) (layout : Layout) :
    Text.parameters? (String.ofList (write layout 0 ps)) =
      some ((placeholders ps).map fun p => p.name.text) := by
  rw [Text.parameters?, atoms?_write hw, Option.map_some, parameters_atoms hw, List.map_map]
  simp [Function.comp_def]

end Piece

end GraphQuery
