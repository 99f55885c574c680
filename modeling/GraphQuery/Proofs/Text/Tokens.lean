import GraphQuery.Proofs.Text.Spans

/-!
# Tokens of a text

A reader takes the atoms of a text for larger units: the longest runs of identifier
characters are words, every other bare character is a sign, and a quoted span stays
as it is. A text may be cut into parts that are taken apart on their own, unless the
cut runs through a word.

Main statements: `lex_append` for a cut and `lex_word` for the tokens of a word.
-/

set_option autoImplicit false

namespace GraphQuery.Text

/-- Units of a text for its reader. -/
inductive Token where
  | word (chars : List Char)
  | sign (c : Char)
  | quoted (quote : Quote) (content : List Char)
  deriving DecidableEq

namespace Token

/-- The tokens with an identifier character before them, which becomes a part of a
word that they begin with. -/
def extend (c : Char) : List Token → List Token
  | .word chars :: rest => .word (c :: chars) :: rest
  | ts => .word [c] :: ts

/-- The tokens with an atom before them. -/
def push : Atom → List Token → List Token
  | .span q content, ts => .quoted q content :: ts
  | .bare c, ts => if isIdentifierPart c then extend c ts else .sign c :: ts

/-- Tokens of atoms. -/
def lex (as : List Atom) : List Token := as.foldr push []

/-- Tokens of characters outside spans. -/
def ofChars (cs : List Char) : List Token := lex (cs.map .bare)

/-- Whether a list of tokens begins with a word. -/
def startsWord : List Token → Bool
  | .word _ :: _ => true
  | _ => false

end Token

/-- Whether an atom is an identifier character. -/
def Atom.isWordPart : Atom → Bool
  | .bare c => isIdentifierPart c
  | .span .. => false

namespace Token

theorem exists_of_startsWord {ts : List Token} (hs : startsWord ts = true) :
    ∃ chars rest, ts = .word chars :: rest := by
  cases ts with
  | nil => cases hs
  | cons t rest =>
      cases t with
      | word chars => exact ⟨chars, rest, rfl⟩
      | sign d => cases hs
      | quoted q content => cases hs

/-- A part of an identifier begins a word where none begins. -/
theorem push_of_part {c : Char} (hc : isIdentifierPart c = true) {ts : List Token}
    (hs : startsWord ts = false) : push (.bare c) ts = .word [c] :: ts := by
  refine (if_pos hc).trans ?_
  cases ts with
  | nil => rfl
  | cons t rest =>
      cases t with
      | word chars => cases hs
      | sign d => rfl
      | quoted q content => rfl

/-- It goes before a word that begins there. -/
theorem push_word {c : Char} (hc : isIdentifierPart c = true) (chars : List Char)
    (ts : List Token) : push (.bare c) (.word chars :: ts) = .word (c :: chars) :: ts :=
  if_pos hc

/-- Another character is a sign of its own. -/
theorem push_sign {c : Char} (hc : isIdentifierPart c = false) (ts : List Token) :
    push (.bare c) ts = .sign c :: ts :=
  if_neg (by simp [hc])

/-- Tokens begin with a word exactly if the atoms begin with an identifier character. -/
theorem startsWord_lex (as : List Atom) : startsWord (lex as) = as.head?.any Atom.isWordPart := by
  cases as with
  | nil => rfl
  | cons a rest =>
      show startsWord (push a (lex rest)) = a.isWordPart
      cases a with
      | span q content => rfl
      | bare c =>
          cases hc : isIdentifierPart c with
          | false => rw [push_sign hc, Atom.isWordPart, hc]; rfl
          | true =>
              rw [Atom.isWordPart, hc]
              cases hs : startsWord (lex rest) with
              | false => rw [push_of_part hc hs]; rfl
              | true =>
                  obtain ⟨chars, ts, ht⟩ := exists_of_startsWord hs
                  rw [ht, push_word hc]
                  rfl

theorem push_append (a : Atom) {us ts : List Token} (hu : us ≠ []) :
    push a (us ++ ts) = push a us ++ ts := by
  cases us with
  | nil => exact absurd rfl hu
  | cons u us =>
      cases a with
      | span q content => rfl
      | bare c =>
          cases hc : isIdentifierPart c with
          | false => rw [push_sign hc, push_sign hc]; rfl
          | true =>
              cases u with
              | word chars => rw [List.cons_append, push_word hc, push_word hc]; rfl
              | sign d => rw [push_of_part hc rfl, push_of_part hc rfl]; rfl
              | quoted q content => rw [push_of_part hc rfl, push_of_part hc rfl]; rfl

theorem push_ne_nil (a : Atom) (ts : List Token) : push a ts ≠ [] := by
  cases a with
  | span q content => exact List.cons_ne_nil _ _
  | bare c =>
      cases hc : isIdentifierPart c with
      | false => rw [push_sign hc]; exact List.cons_ne_nil _ _
      | true =>
          cases hs : startsWord ts with
          | false => rw [push_of_part hc hs]; exact List.cons_ne_nil _ _
          | true =>
              obtain ⟨chars, rest, rfl⟩ := exists_of_startsWord hs
              rw [push_word hc]
              exact List.cons_ne_nil _ _

/-- Parts of a text have their own tokens if no word runs over the cut. -/
theorem lex_append {as bs : List Atom}
    (h : as.getLast?.any Atom.isWordPart = true → bs.head?.any Atom.isWordPart = false) :
    lex (as ++ bs) = lex as ++ lex bs := by
  induction as with
  | nil => rfl
  | cons a rest ih =>
      show push a (lex (rest ++ bs)) = push a (lex rest) ++ lex bs
      cases rest with
      | nil =>
          cases a with
          | span q content => rfl
          | bare c =>
              cases hc : isIdentifierPart c with
              | false => rw [List.nil_append, push_sign hc, push_sign hc]; rfl
              | true =>
                  have hs : startsWord (lex bs) = false := by
                    rw [startsWord_lex]
                    exact h hc
                  rw [List.nil_append, push_of_part hc hs, push_of_part hc rfl]
                  rfl
      | cons b rest =>
          have hlast : (a :: b :: rest).getLast? = (b :: rest).getLast? := List.getLast?_cons_cons
          rw [hlast] at h
          exact (congrArg (push a) (ih h)).trans (push_append a (push_ne_nil b (lex rest)))

/-- Identifier characters are one word. -/
theorem lex_word {cs : List Char} (hne : cs ≠ []) (hcs : ∀ c ∈ cs, isIdentifierPart c = true) :
    ofChars cs = [.word cs] := by
  induction cs with
  | nil => exact absurd rfl hne
  | cons c rest ih =>
      have hc := hcs c List.mem_cons_self
      show push (.bare c) (ofChars rest) = _
      cases rest with
      | nil => exact push_of_part hc rfl
      | cons d rest =>
          have hrest := ih (List.cons_ne_nil d rest) fun e he => hcs e (List.mem_cons_of_mem c he)
          rw [hrest, push_word hc]

theorem ofChars_sign {c : Char} (hc : isIdentifierPart c = false) (cs : List Char) :
    ofChars (c :: cs) = .sign c :: ofChars cs :=
  push_sign hc (ofChars cs)

/-- An identifier character begins the first word. -/
theorem ofChars_part {c : Char} (hc : isIdentifierPart c = true) (cs : List Char) :
    ∃ w ts, ofChars (c :: cs) = .word (c :: w) :: ts ∧
      (w = [] ∧ ofChars cs = ts ∨ ofChars cs = .word w :: ts) := by
  cases hs : startsWord (ofChars cs) with
  | false => exact ⟨[], ofChars cs, push_of_part hc hs, .inl ⟨rfl, rfl⟩⟩
  | true =>
      obtain ⟨w, ts, hw⟩ := exists_of_startsWord hs
      refine ⟨w, ts, ?_, .inr hw⟩
      show push (.bare c) (ofChars cs) = _
      rw [hw, push_word hc]

end Token

end GraphQuery.Text
