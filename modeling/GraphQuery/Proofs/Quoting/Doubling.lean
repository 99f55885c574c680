import GraphQuery.Text.Quoted

/-!
# Doubled marks are undone

A text in quotes begins and ends with the mark, and every mark between stands in a pair.
These texts are the written forms, each of exactly one content, and the content is found
by taking the outer marks off and one mark out of each pair. A reader who scans a longer
text from the opening mark stops at the same place, as long as the text goes on with some
other character: one more mark would pair up with the closing one.

Main statement: `Quote.written_reads`.
-/

set_option autoImplicit false

namespace GraphQuery.Text

namespace Quote

/-! ## Pairs of marks -/

/-- Texts in which every mark stands in a pair. -/
inductive Paired (q : Quote) : List Char → Prop where
  | nil : Paired q []
  | plain {c : Char} {rest : List Char} (h : c ≠ q.mark) (later : Paired q rest) :
      Paired q (c :: rest)
  | pair {rest : List Char} (later : Paired q rest) : Paired q (q.mark :: q.mark :: rest)

/-- A text with one mark in the place of each pair; `none` if a mark stands alone. -/
def undoubled? (q : Quote) : List Char → Option (List Char)
  | [] => some []
  | [c] => if c = q.mark then none else some [c]
  | c :: d :: rest =>
      if c = q.mark then
        if d = q.mark then (undoubled? q rest).map (c :: ·) else none
      else (undoubled? q (d :: rest)).map (c :: ·)

section Pairs

variable {q : Quote} {c : Char} {s text : List Char}

theorem doubled_mark (q : Quote) (s : List Char) :
    q.doubled (q.mark :: s) = q.mark :: q.mark :: q.doubled s :=
  if_pos rfl

theorem doubled_plain (h : c ≠ q.mark) (s : List Char) :
    q.doubled (c :: s) = c :: q.doubled s :=
  if_neg h

theorem undoubled?_pair (q : Quote) (rest : List Char) :
    q.undoubled? (q.mark :: q.mark :: rest) = (q.undoubled? rest).map (q.mark :: ·) := by
  simp [undoubled?]

theorem undoubled?_plain (h : c ≠ q.mark) (rest : List Char) :
    q.undoubled? (c :: rest) = (q.undoubled? rest).map (c :: ·) := by
  cases rest with
  | nil => simp [undoubled?, h]
  | cons d rest => simp [undoubled?, h]

/-- Doubling leaves no mark alone. -/
theorem paired_doubled (q : Quote) (s : List Char) : q.Paired (q.doubled s) := by
  induction s with
  | nil => exact .nil
  | cons c rest ih =>
      by_cases h : c = q.mark
      · subst h
        rw [doubled_mark]
        exact .pair ih
      · rw [doubled_plain h]
        exact .plain h ih

/-- Doubled marks are read back as single ones. -/
theorem undoubled?_doubled (q : Quote) (s : List Char) :
    q.undoubled? (q.doubled s) = some s := by
  induction s with
  | nil => rfl
  | cons c rest ih =>
      by_cases h : c = q.mark
      · subst h
        rw [doubled_mark, undoubled?_pair, ih]
        rfl
      · rw [doubled_plain h, undoubled?_plain h, ih]
        rfl

/-- Only the doubled text is read back as a text. -/
theorem doubled_of_undoubled? (h : q.undoubled? text = some s) : q.doubled s = text := by
  fun_induction undoubled? q text generalizing s with
  | case1 =>
      cases h
      rfl
  | case2 => cases h
  | case3 c hc =>
      cases h
      exact doubled_plain hc []
  | case4 rest ih =>
      obtain ⟨content, hcontent, rfl⟩ := Option.map_eq_some_iff.1 h
      rw [doubled_mark, ih hcontent]
  | case5 => cases h
  | case6 c d rest hc ih =>
      obtain ⟨content, hcontent, rfl⟩ := Option.map_eq_some_iff.1 h
      rw [doubled_plain hc, ih hcontent]

/-- Nothing but doubling gives a text of pairs. -/
theorem exists_of_paired (h : q.Paired text) : ∃ s, q.doubled s = text := by
  induction h with
  | nil => exact ⟨[], rfl⟩
  | plain hc _ ih =>
      obtain ⟨s, rfl⟩ := ih
      exact ⟨_ :: s, doubled_plain hc s⟩
  | pair _ ih =>
      obtain ⟨s, rfl⟩ := ih
      exact ⟨q.mark :: s, doubled_mark q s⟩

end Pairs

/-! ## Scanning -/

section Scan

variable {q : Quote} {c : Char} {s content left : List Char}

/-- A scan goes on over a character that is no mark. -/
theorem scan?_plain (h : c ≠ q.mark) (rest : List Char) :
    q.scan? (c :: rest) = (q.scan? rest).map fun (content, left) => (c :: content, left) := by
  cases rest with
  | nil => simp [scan?, h]
  | cons d rest => simp [scan?, h]

/-- A scan goes on over a pair of marks and counts it once. -/
theorem scan?_pair (q : Quote) (rest : List Char) :
    q.scan? (q.mark :: q.mark :: rest) =
      (q.scan? rest).map fun (content, left) => (q.mark :: content, left) := by
  simp [scan?]

/-- A doubled content does not end a span: the scan goes on behind it. -/
theorem scan?_doubled_append (q : Quote) (s rest : List Char) :
    q.scan? (q.doubled s ++ rest) =
      (q.scan? rest).map fun (content, left) => (s ++ content, left) := by
  induction s with
  | nil => simp [doubled]
  | cons c s ih =>
      by_cases h : c = q.mark
      · subst h
        rw [doubled_mark, List.cons_append, List.cons_append, scan?_pair, ih, Option.map_map]
        rfl
      · rw [doubled_plain h, List.cons_append, scan?_plain h, ih, Option.map_map]
        rfl

/-- A scanned span is a doubled content with the closing mark behind it. -/
theorem eq_of_scan? {text : List Char} (h : q.scan? text = some (content, left)) :
    text = q.doubled content ++ q.mark :: left := by
  fun_induction scan? q text generalizing content with
  | case1 => cases h
  | case2 =>
      cases h
      rfl
  | case3 => cases h
  | case4 rest ih =>
      obtain ⟨⟨inner, tail⟩, hinner, heq⟩ := Option.map_eq_some_iff.1 h
      simp only [Prod.mk.injEq] at heq
      obtain ⟨rfl, rfl⟩ := heq
      rw [doubled_mark, ih hinner]
      rfl
  | case5 d rest _ =>
      cases h
      rfl
  | case6 c d rest hc ih =>
      obtain ⟨⟨inner, tail⟩, hinner, heq⟩ := Option.map_eq_some_iff.1 h
      simp only [Prod.mk.injEq] at heq
      obtain ⟨rfl, rfl⟩ := heq
      rw [doubled_plain hc, ih hinner]
      rfl

/-- A span ends at the closing mark of a written form exactly if the text does not go on
with one more mark. -/
theorem scan?_doubled_iff :
    q.scan? (q.doubled s ++ q.mark :: left) = some (s, left) ↔ left.head? ≠ some q.mark := by
  constructor
  · intro hscan hhead
    cases left with
    | nil => cases hhead
    | cons d rest =>
        -- the two marks make a pair, so the content that is read is longer than `s`
        obtain rfl : d = q.mark := Option.some.inj hhead
        rw [scan?_doubled_append, scan?_pair, Option.map_map] at hscan
        obtain ⟨⟨inner, tail⟩, -, heq⟩ := Option.map_eq_some_iff.1 hscan
        have hlength := congrArg (fun found => found.1.length) heq
        simp at hlength
  · exact q.scan?_doubled s left

end Scan

/-! ## Texts in quotes -/

/-- A text between its outer marks; `none` if one of them is missing. -/
def stripped? (q : Quote) : List Char → Option (List Char)
  | [] => none
  | c :: rest =>
      if c = q.mark ∧ rest.getLast? = some q.mark then some rest.dropLast else none

/-- The content of a text in quotes: the outer marks are taken off and the pairs undone. -/
def unquoted? (q : Quote) (text : String) : Option String :=
  ((q.stripped? text.toList).bind q.undoubled?).map String.ofList

/-- Texts that begin and end with the mark and have marks in pairs only between. -/
def Encloses (q : Quote) (text : String) : Prop :=
  ∃ inside, text.toList = q.mark :: inside ++ [q.mark] ∧ q.Paired inside

/-- The text for a content, a name in backticks or a string literal. -/
def written : Quote → String → String
  | .backtick => quoteName
  | .double => quoteString

section Written

variable {q : Quote} {s text : String}

theorem toList_written (q : Quote) (s : String) : (q.written s).toList = q.encode s := by
  cases q with
  | backtick => exact String.toList_ofList
  | double => exact String.toList_ofList

/-- A text is stripped of the marks that stand at both of its ends. -/
theorem stripped?_eq_some_iff {text inside : List Char} :
    q.stripped? text = some inside ↔ text = q.mark :: inside ++ [q.mark] := by
  cases text with
  | nil => simp [stripped?]
  | cons c rest =>
      simp only [stripped?, Option.ite_none_right_eq_some, Option.some.injEq, List.cons_append,
        List.cons.injEq]
      constructor
      · rintro ⟨⟨rfl, hlast⟩, rfl⟩
        obtain ⟨inside, rfl⟩ := List.getLast?_eq_some_iff.1 hlast
        rw [List.dropLast_concat]
        exact ⟨rfl, rfl⟩
      · rintro ⟨rfl, rfl⟩
        simp

/-- A text is unquoted only to what is written like it. -/
theorem unquoted?_eq_some_iff : q.unquoted? text = some s ↔ q.written s = text := by
  rw [← String.toList_inj, toList_written, encode, unquoted?]
  constructor
  · intro h
    obtain ⟨content, hcontent, rfl⟩ := Option.map_eq_some_iff.1 h
    obtain ⟨inside, hinside, hundoubled⟩ := Option.bind_eq_some_iff.1 hcontent
    rw [String.toList_ofList, doubled_of_undoubled? hundoubled]
    exact (stripped?_eq_some_iff.1 hinside).symm
  · intro h
    rw [stripped?_eq_some_iff.2 h.symm, Option.bind_some, undoubled?_doubled, Option.map_some,
      String.ofList_toList]

/-- A mark encloses a text properly if the text is the written form of another. -/
theorem encloses_iff : q.Encloses text ↔ ∃ s, q.written s = text := by
  constructor
  · rintro ⟨inside, htext, hpaired⟩
    obtain ⟨content, rfl⟩ := exists_of_paired hpaired
    refine ⟨String.ofList content, ?_⟩
    rw [← String.toList_inj, toList_written, encode, String.toList_ofList, htext]
  · rintro ⟨s, rfl⟩
    exact ⟨q.doubled s.toList, q.toList_written s, q.paired_doubled s.toList⟩

/-- A scanner that has to use up the whole text reads the same contents. -/
theorem decode?_eq_some_iff {content : List Char} :
    q.decode? text.toList = some content ↔ q.unquoted? text = some (String.ofList content) := by
  rw [unquoted?_eq_some_iff, ← String.toList_inj, toList_written, encode, String.toList_ofList]
  cases text.toList with
  | nil => simp [decode?]
  | cons c rest =>
      rw [List.cons_append, List.cons.injEq, decode?]
      constructor
      · intro h
        split at h
        · next hc =>
            split at h
            · next found hscan =>
                cases h
                exact ⟨hc.symm, (eq_of_scan? hscan).symm⟩
            · cases h
        · cases h
      · rintro ⟨rfl, rfl⟩
        have hscan : q.scan? (q.doubled content ++ [q.mark]) = some (content, []) :=
          scan?_doubled_iff.2 (by simp)
        rw [if_pos rfl, hscan]

/-- The written forms are the texts in quotes, one for each content. Undoing the pairs finds
the content again, and so does a scanner that has to use up the text; both refuse all other
texts. In a longer text a span that opens with a written form ends with it exactly if the
text does not go on with one more mark. -/
theorem written_reads (q : Quote) :
    (∀ s, q.unquoted? (q.written s) = some s) ∧
    (∀ text, q.Encloses text ↔ ∃ s, q.unquoted? text = some s ∧ q.written s = text) ∧
    (∀ text s, q.unquoted? text = some s ↔ q.written s = text) ∧
    (∀ text, q.decode? text.toList = (q.unquoted? text).map String.toList) ∧
    ∀ s t, ∃ rest, (q.written s ++ t).toList = q.mark :: rest ∧
      (q.scan? rest = some (s.toList, t.toList) ↔ t.toList.head? ≠ some q.mark) := by
  refine ⟨fun s => unquoted?_eq_some_iff.2 rfl, fun text => ?_,
    fun text s => unquoted?_eq_some_iff, fun text => ?_, fun s t => ?_⟩
  · rw [encloses_iff]
    constructor
    · rintro ⟨s, hs⟩
      exact ⟨s, unquoted?_eq_some_iff.2 hs, hs⟩
    · rintro ⟨s, -, hs⟩
      exact ⟨s, hs⟩
  · apply Option.ext
    intro content
    rw [decode?_eq_some_iff, Option.map_eq_some_iff]
    constructor
    · intro h
      exact ⟨_, h, String.toList_ofList⟩
    · rintro ⟨s, hs, rfl⟩
      rw [hs, String.ofList_toList]
  · refine ⟨q.doubled s.toList ++ q.mark :: t.toList, ?_, scan?_doubled_iff⟩
    rw [String.toList_append, toList_written, encode]
    simp

end Written

/-- Three marks in a row: two of them are the content, the third ends the span. -/
example : Quote.backtick.unquoted? "\x60a\x60\x60\x60" = some "a\x60" ∧
    Quote.backtick.unquoted? "\x60a\x60\x60" = none := by
  decide +kernel

end Quote

end GraphQuery.Text
