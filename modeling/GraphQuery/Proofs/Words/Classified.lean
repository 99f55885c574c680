import GraphQuery.Checked.Expr
import GraphQuery.Proofs.Rendering.Line
import GraphQuery.Proofs.Rendering.Selectors
import GraphQuery.Proofs.Words.Names

/-!
# Telling names from words of the language

A bare word of a text is read as a word of the language if it is one of the vocabulary or
begins with a digit, and as a name otherwise. That is right for every word but for a name
that the user has spelt like a word of the vocabulary. Identifiers are checked by their
characters only, so there are such names, and a variable may be written like a literal.

Main statement: `Fragment.classify_bareWords`.
-/

set_option autoImplicit false

namespace GraphQuery

open Text (Token)

/-! ## Names and the vocabulary -/

theorem Identifier.isGrammarWord_iff (id : Identifier) :
    Text.isGrammarWord id.text = true ↔ id.text ∈ grammarWords := by
  rw [Text.isGrammarWord, Expr.isDigit_head_identifier, Bool.false_or, List.contains_iff_mem]

/-- A numbered name ends in a digit, which no word of the vocabulary does. -/
theorem Identifier.numbered_not_mem (stem : Identifier) (n : Nat) :
    (stem.numbered n).text ∉ grammarWords := by
  intro hmem
  have hwords : ∀ word ∈ grammarWords, word.toList.getLast?.any Char.isDigit = false := by
    decide
  have hlast := hwords _ hmem
  have htext : (stem.numbered n).text.toList = stem.text.toList ++ Number.digits n :=
    String.toList_ofList
  rw [htext, List.getLast?_append] at hlast
  cases hdigit : (Number.digits n).getLast? with
  | none => exact Number.digits_ne_nil n (List.getLast?_eq_none_iff.1 hdigit)
  | some c =>
      rw [hdigit] at hlast
      have hc := Number.allDigits_digits n c (List.mem_of_getLast? hdigit)
      exact absurd hc (ne_true_of_eq_false hlast)

namespace Piece

/-- A piece that is no name has words of the language and selectors only. -/
theorem origin_of_isFixed {p : Piece} (hp : p.isFixed = true) :
    ∀ w ∈ p.bareWords, (w.origin = .language ∧ Text.isGrammarWord w.text = true) ∨
      ∃ id, p = .selector id ∧ w = ⟨id.text, .generated⟩ := by
  intro w hw
  cases p with
  | word text =>
      obtain ⟨word, hword, rfl⟩ := List.mem_map.1 hw
      exact .inl ⟨rfl, List.all_eq_true.1 hp word hword⟩
  | selector id => exact .inr ⟨id, rfl, List.mem_singleton.1 hw⟩
  | openBody =>
      obtain rfl := List.mem_singleton.1 hw
      exact .inl ⟨rfl, by decide⟩
  | name id => cases hp
  | quoted _ _ | placeholder _ | gap | lineBreak | closeBody => cases hw

/-- The bare words of the user are the names among the pieces. -/
theorem filter_user_bareWords (ps : List Piece) :
    ((ps.flatMap bareWords).filter fun w => w.origin == .user).map BareWord.text =
      (ps.filterMap name?).map Identifier.text := by
  induction ps with
  | nil => rfl
  | cons p rest ih =>
      rw [List.flatMap_cons, List.filter_append, List.map_append, ih]
      cases p with
      | name id => rfl
      | word text =>
          have hnone : (Piece.word text).bareWords.filter (fun w => w.origin == .user) = [] := by
            refine List.filter_eq_nil_iff.2 fun w hw => ?_
            obtain ⟨word, -, rfl⟩ := List.mem_map.1 hw
            exact Bool.false_ne_true
          rw [hnone]
          rfl
      | selector _ | quoted _ _ | placeholder _ | gap | lineBreak | openBody | closeBody => rfl

end Piece

/-! ## Variables and literals -/

namespace Expr

theorem text_of_piece {e : Expr} {p : Piece} (h : e.pieces = [p]) : e.text = p.lineText := by
  rw [← e.line_pieces, h, Piece.line_cons, Piece.line_nil, String.append_empty]

/-- The text of a variable is its name. -/
theorem text_name (var : Identifier) : (name var).text = var.text :=
  text_of_piece (p := .name var) rfl

theorem text_of_word {value : Literal} {text : String} (h : value.pieces = [.word text]) :
    (literal value).text = text :=
  text_of_piece (e := .literal value) h

/-- An identifier does not begin like a number. -/
theorem not_isNumeralStart_head (var : Identifier) :
    var.text.toList.head?.any Number.isNumeralStart = false := by
  have hdigit := isDigit_head_identifier var
  cases hhead : var.text.toList.head? with
  | none => rfl
  | some c =>
      rw [hhead] at hdigit
      have hpart := var.isIdentifierPart_of_mem c (List.mem_of_head? hhead)
      have hminus : c ≠ '-' := by
        rintro rfl
        cases hpart
      show (c.isDigit || c == '-') = false
      rw [show c.isDigit = false from hdigit, beq_false_of_ne hminus]
      rfl

/-- No variable is written like a number. -/
theorem text_name_ne_number {var : Identifier} {text : String}
    (h : text.toList.head?.any Number.isNumeralStart = true) : var.text ≠ text := by
  rintro rfl
  rw [not_isNumeralStart_head] at h
  cases h

/-- A variable is written like a literal only if it is named like `null`, `true` or `false`. -/
theorem text_name_eq_literal_iff (var : Identifier) (value : Literal) :
    (name var).text = (literal value).text ↔
      (value = .null ∧ var.text = "null") ∨ (value = .bool true ∧ var.text = "true") ∨
        (value = .bool false ∧ var.text = "false") := by
  rw [text_name]
  cases value with
  | null =>
      rw [text_of_word rfl]
      simp
  | bool b =>
      cases b with
      | true =>
          rw [text_of_word rfl]
          simp
      | false =>
          rw [text_of_word rfl]
          simp
  | int n =>
      rw [text_of_word rfl]
      have hne : var.text ≠ Number.integerText n := by
        refine text_name_ne_number ?_
        rw [Number.integerText, String.toList_ofList]
        exact Number.isNumeralStart_signedDigits n
      simp [hne]
  | float x =>
      rw [text_of_word rfl]
      have hne : var.text ≠ x.value.text := text_name_ne_number (Number.isNumeralStart_text x)
      simp [hne]
  | string s =>
      have hne : var.text ≠ (literal (.string s)).text := by
        intro htext
        -- the quotation mark that the literal begins with is no part of a name
        have hmark : '"' ∈ var.text.toList := by
          rw [htext, Expr.text, String.toList_ofList]
          exact List.mem_cons_self
        have hpart := var.isIdentifierPart_of_mem '"' hmark
        cases hpart
      simp [hne]

end Expr

/-! ## Texts of fragments -/

namespace Fragment

/-- Every bare word is read for what it is, but for names spelt like words of the vocabulary. -/
theorem origin_bareWords (a : Fragment) (supply : NameSupply) :
    ∀ w ∈ a.bareWords supply, (w.origin = .user ∧ w.text ∈ grammarWords) ∨
      (Text.isGrammarWord w.text = true ↔ w.origin = .language) := by
  intro w hw
  obtain ⟨p, hp, hword⟩ := List.mem_flatMap.1 hw
  rcases (a.voiced_pieces supply).fixed p hp with hfixed | ⟨id, rfl⟩
  · rcases Piece.origin_of_isFixed hfixed w hword with ⟨horigin, hgrammar⟩ | ⟨id, rfl, rfl⟩
    · exact .inr (iff_of_true hgrammar horigin)
    · -- selectors are numbered, so they are not ones of the vocabulary
      obtain ⟨o, -, rfl⟩ := List.mem_map.1 (a.selector_mem supply hp)
      refine .inr (iff_of_false (fun hgrammar => ?_) (by simp))
      exact Identifier.numbered_not_mem _ _ ((Identifier.isGrammarWord_iff _).1 hgrammar)
  · obtain rfl := List.mem_singleton.1 hword
    by_cases hmem : id.text ∈ grammarWords
    · exact .inl ⟨rfl, hmem⟩
    · exact .inr (iff_of_false (fun hgrammar => hmem (id.isGrammarWord_iff.1 hgrammar)) (by simp))

/-- The bare words of the user are the bare names of the fragment. -/
theorem text_bareNames (a : Fragment) (supply : NameSupply) :
    ((a.bareWords supply).filter fun w => w.origin == .user).map BareWord.text =
      a.bareNames.map Identifier.text := by
  rw [bareWords, Piece.filter_user_bareWords, (a.voiced_pieces supply).names_eq]

/-- In a text, the bare words can be told from each other, except that a name spelt like a word
of the vocabulary passes for it. The names that the user chose are those in the syntax. If
none of them is spelt so, the words of the language are told from all names by the text
alone. A variable and a literal have one text only if the variable is named like it. -/
theorem classify_bareWords (a : Fragment) (layout : Layout) (supply : NameSupply) :
    Text.bareWords? (a.render layout supply).1.text =
      some ((a.bareWords supply).map BareWord.text) ∧
    ((a.bareWords supply).filter fun w => w.origin == .user).map BareWord.text =
      a.bareNames.map Identifier.text ∧
    (∀ w ∈ a.bareWords supply, (w.origin = .user ∧ w.text ∈ grammarWords) ∨
      (Text.isGrammarWord w.text = true ↔ w.origin = .language)) ∧
    ((∀ id ∈ a.bareNames, id.text ∉ grammarWords) →
      (Text.bareWords? (a.render layout supply).1.text).map (List.map Text.isGrammarWord) =
        some ((a.bareWords supply).map fun w => w.origin == .language)) ∧
    ∀ (var : Identifier) (value : Literal),
      (Expr.name var).text = (Expr.literal value).text ↔
        (value = .null ∧ var.text = "null") ∨ (value = .bool true ∧ var.text = "true") ∨
          (value = .bool false ∧ var.text = "false") := by
  have horigins := a.origin_bareWords supply
  refine ⟨a.bareWords?_render layout supply, a.text_bareNames supply, horigins, ?_,
    Expr.text_name_eq_literal_iff⟩
  intro hnames
  rw [a.bareWords?_render layout supply, Option.map_some, List.map_map]
  refine congrArg some (List.map_congr_left fun w hw => ?_)
  rcases horigins w hw with ⟨huser, hmem⟩ | hiff
  · -- the word would be one of the names
    have hword : w.text ∈ a.bareNames.map Identifier.text := by
      rw [← a.text_bareNames supply]
      exact List.mem_map_of_mem (List.mem_filter.2 ⟨hw, by simp [huser]⟩)
    obtain ⟨id, hid, htext⟩ := List.mem_map.1 hword
    exact absurd (htext ▸ hmem) (hnames id hid)
  · rw [Function.comp_apply, Bool.eq_iff_iff, hiff, beq_iff_eq]

/-- The nested query uses one variable, which is not spelt like a word of the vocabulary. -/
theorem classify_bareWords_nested :
    (∀ id ∈ (Fragment.query Sample.nested).bareNames, id.text ∉ grammarWords) ∧
    (Text.bareWords? ((Fragment.query Sample.nested).render .pretty .fresh).1.text).map
        (List.map Text.isGrammarWord) =
      some (((Fragment.query Sample.nested).bareWords .fresh).map fun w =>
        w.origin == .language) := by
  have hnames : ∀ id ∈ (Fragment.query Sample.nested).bareNames, id.text ∉ grammarWords := by
    decide
  exact ⟨hnames, (classify_bareWords (.query Sample.nested) .pretty .fresh).2.2.2.1 hnames⟩

namespace Sample

/-- A name that is spelt like a literal. -/
def null : Identifier := ⟨"null", by decide⟩

end Sample

/-- The variable `null` can be built, and its text is the literal's. -/
theorem text_null :
    Expr.ofName "null" = .ok (.name Sample.null) ∧
    (Expr.name Sample.null).text = (Expr.literal .null).text ∧
    ¬ (∀ a : Fragment, ∀ id ∈ a.bareNames, id.text ∉ grammarWords) ∧
    ¬ ∀ (var : Identifier) (value : Literal),
      (Expr.name var).text ≠ (Expr.literal value).text := by
  have htext : (Expr.name Sample.null).text = (Expr.literal .null).text := rfl
  refine ⟨rfl, htext, fun h => ?_, fun h => h Sample.null .null htext⟩
  have hmem : Sample.null ∈ (Fragment.expr (.name Sample.null)).bareNames := List.mem_cons_self
  exact h (.expr (.name Sample.null)) Sample.null hmem (by decide)

end Fragment

end GraphQuery
