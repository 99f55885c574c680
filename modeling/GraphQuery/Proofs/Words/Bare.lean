import GraphQuery.Proofs.Rendering.Fragment
import GraphQuery.Proofs.Rendering.Tokens

/-!
# Bare words

A reader of query text meets words outside quotes. Those behind a dollar sign are names of
placeholders; the others are bare. A bare word has been written as a word of the language, as
a name that the user chose, or as a selector, and the text does not show which.

Main statement: `Fragment.bareWords?_render`, the bare words found in a text are those of the
pieces, in order, in every layout.
-/

set_option autoImplicit false

namespace GraphQuery

open Text (Atom Token)

/-! ## Words among tokens -/

namespace Text.Token

/-- The word a token is, if it is one. -/
def word? : Token → Option String
  | .word chars => some (String.ofList chars)
  | _ => none

/-- Words among tokens. -/
def words (ts : List Token) : List String := ts.filterMap word?

/-- Words among tokens but for those directly behind a dollar sign; `behind` holds when the
tokens stand behind one. -/
def bareWords (behind : Bool) : List Token → List String
  | [] => []
  | .word chars :: rest => (if behind then [] else [String.ofList chars]) ++ bareWords false rest
  | .sign c :: rest => bareWords (c == '$') rest
  | .quoted .. :: rest => bareWords false rest

/-- Whether something behind the tokens stands behind a dollar sign. -/
def endsInDollar (behind : Bool) : List Token → Bool
  | [] => behind
  | .word _ :: rest => endsInDollar false rest
  | .sign c :: rest => endsInDollar (c == '$') rest
  | .quoted .. :: rest => endsInDollar false rest

/-- What is a bare word is told by the tokens before it. -/
theorem bareWords_append (behind : Bool) (ts us : List Token) :
    bareWords behind (ts ++ us) =
      bareWords behind ts ++ bareWords (endsInDollar behind ts) us := by
  induction ts generalizing behind with
  | nil => rfl
  | cons t rest ih =>
      cases t with
      | word chars =>
          rw [List.cons_append, bareWords, bareWords, endsInDollar, ih, List.append_assoc]
      | sign c => exact ih (c == '$')
      | quoted q content => exact ih false

/-- Without dollar signs all words are bare. -/
theorem bareWords_eq_words {ts : List Token} (h : Token.sign '$' ∉ ts) :
    bareWords false ts = words ts ∧ endsInDollar false ts = false := by
  induction ts with
  | nil => exact ⟨rfl, rfl⟩
  | cons t rest ih =>
      obtain ⟨hhead, hrest⟩ := not_or.1 (mt List.mem_cons.2 h)
      obtain ⟨hwords, hend⟩ := ih hrest
      cases t with
      | word chars => exact ⟨congrArg (String.ofList chars :: ·) hwords, hend⟩
      | quoted q content => exact ⟨hwords, hend⟩
      | sign c =>
          have hne : (c == '$') = false := beq_false_of_ne fun hc => hhead (hc ▸ rfl)
          rw [bareWords, endsInDollar, hne]
          exact ⟨hwords, hend⟩

/-- Extending a word brings no new signs. -/
theorem sign_mem_extend {c d : Char} {ts : List Token} (h : .sign d ∈ extend c ts) :
    .sign d ∈ ts := by
  cases ts with
  | nil => simp [extend] at h
  | cons t rest => cases t <;> simpa [extend] using h

/-- The signs among the tokens of characters are characters of their own. -/
theorem mem_of_sign_mem_ofChars {d : Char} {cs : List Char} (h : .sign d ∈ ofChars cs) :
    d ∈ cs := by
  induction cs with
  | nil => cases h
  | cons c rest ih =>
      cases hc : isIdentifierPart c with
      | true =>
          have hextend : ofChars (c :: rest) = extend c (ofChars rest) := if_pos hc
          rw [hextend] at h
          exact List.mem_cons_of_mem c (ih (sign_mem_extend h))
      | false =>
          rw [ofChars_sign hc] at h
          rcases List.mem_cons.1 h with heq | hrest
          · cases heq
            exact List.mem_cons_self
          · exact List.mem_cons_of_mem c (ih hrest)

/-- Characters behind a sign have tokens of their own. -/
theorem ofChars_append {s : List Char} (h : s.getLast?.any isIdentifierPart = false)
    (t : List Char) : ofChars (s ++ t) = ofChars s ++ ofChars t := by
  rw [ofChars, List.map_append]
  refine lex_append fun hlast => ?_
  rw [List.getLast?_map] at hlast
  cases hend : s.getLast? with
  | none => rw [hend] at hlast; cases hlast
  | some c =>
      rw [hend] at h hlast
      exact absurd hlast (ne_true_of_eq_false h)

/-- Characters that are no parts of words are signs. -/
theorem ofChars_signs {cs : List Char} (h : ∀ c ∈ cs, isIdentifierPart c = false) :
    ofChars cs = cs.map .sign := by
  induction cs with
  | nil => rfl
  | cons c rest ih =>
      obtain ⟨hc, hrest⟩ := List.forall_mem_cons.1 h
      rw [ofChars_sign hc, ih hrest, List.map_cons]

theorem words_append (ts us : List Token) : words (ts ++ us) = words ts ++ words us :=
  List.filterMap_append

theorem words_signs (cs : List Char) : words (cs.map .sign) = [] := by
  rw [words, List.filterMap_map, List.filterMap_eq_nil_iff]
  exact fun c _ => rfl

end Text.Token

/-- Bare words of a text, `none` if a span never ends. -/
def Text.bareWords? (text : String) : Option (List String) :=
  (Text.tokens? text).map (Token.bareWords false)

/-! ## Words of pieces -/

/-- What a bare word has been written as. -/
inductive Origin where
  | language
  | user
  | generated
  deriving DecidableEq

/-- A bare word and what it has been written as. -/
structure BareWord where
  text : String
  origin : Origin
  deriving DecidableEq

namespace Piece

/-- Bare words of a piece. -/
def bareWords : Piece → List BareWord
  | .word text => (Token.words (Token.ofChars text.toList)).map fun word => ⟨word, .language⟩
  | .name id => [⟨id.text, .user⟩]
  | .selector id => [⟨id.text, .generated⟩]
  | .openBody => [⟨"CALL", .language⟩]
  | _ => []

/-- Plain characters have bare words only, and leave no dollar sign behind. -/
theorem bareWords_plain {cs : List Char} (h : ∀ c ∈ cs, GraphQuery.isPlain c = true) :
    Token.bareWords false (Token.lex (cs.map .bare)) = Token.words (Token.ofChars cs) ∧
      Token.endsInDollar false (Token.lex (cs.map .bare)) = false := by
  refine Token.bareWords_eq_words fun hdollar => ?_
  have hplain := h '$' (Token.mem_of_sign_mem_ofChars hdollar)
  cases hplain

/-- The bare words of a piece do not depend on the layout. -/
theorem bareWords_atomsAt {p : Piece} (hp : p.isPlain = true) (layout : Layout) (depth : Nat) :
    Token.bareWords false (Token.lex (p.atomsAt layout depth)) =
        p.bareWords.map BareWord.text ∧
      Token.endsInDollar false (Token.lex (p.atomsAt layout depth)) = false := by
  cases p with
  | word text =>
      obtain ⟨hwords, hend⟩ := bareWords_plain (List.all_eq_true.1 hp)
      refine ⟨?_, hend⟩
      rw [bareWords, List.map_map]
      exact hwords.trans (List.map_id _).symm
  | name id =>
      have htokens : Token.lex ((Piece.name id).atomsAt layout depth) = [.word id.text.toList] :=
        tokens_name id
      rw [htokens]
      exact ⟨congrArg (fun text => [text]) String.ofList_toList, rfl⟩
  | selector id =>
      have htokens :
          Token.lex ((Piece.selector id).atomsAt layout depth) = [.word id.text.toList] :=
        tokens_name id
      rw [htokens]
      exact ⟨congrArg (fun text => [text]) String.ofList_toList, rfl⟩
  | quoted q content => exact ⟨rfl, rfl⟩
  | placeholder p =>
      have htokens : Token.lex ((Piece.placeholder p).atomsAt layout depth) =
          [.sign '$', .word p.name.text.toList] := tokens_placeholder p
      rw [htokens]
      exact ⟨rfl, rfl⟩
  | gap => exact ⟨rfl, rfl⟩
  | lineBreak =>
      obtain ⟨hwords, hend⟩ := bareWords_plain (layout.plain_lineBreak depth)
      refine ⟨?_, hend⟩
      rw [Token.ofChars_signs (layout.not_isIdentifierPart_lineBreak depth),
        Token.words_signs] at hwords
      exact hwords
  | openBody =>
      have hplain : ∀ c ∈ "CALL \x7b".toList ++ layout.lineBreak (depth + 1),
          GraphQuery.isPlain c = true :=
        List.forall_mem_append.2
          ⟨List.all_eq_true.1 (by decide), layout.plain_lineBreak (depth + 1)⟩
      obtain ⟨hwords, hend⟩ := bareWords_plain hplain
      refine ⟨hwords.trans ?_, hend⟩
      -- the brace keeps the word apart from what follows
      have hcall : Token.words (Token.ofChars "CALL \x7b".toList) = ["CALL"] := by decide
      have hbreak : Token.words (Token.ofChars (layout.lineBreak (depth + 1))) = [] := by
        rw [Token.ofChars_signs (layout.not_isIdentifierPart_lineBreak (depth + 1)),
          Token.words_signs]
      have hcut := congrArg Token.words
        (Token.ofChars_append (s := "CALL \x7b".toList) (by decide) (layout.lineBreak (depth + 1)))
      exact hcut.trans ((Token.words_append _ _).trans (congrArg₂ (· ++ ·) hcall hbreak))
  | closeBody =>
      have hsigns : ∀ c ∈ layout.lineBreak (depth - 1) ++ ['\x7d'], isIdentifierPart c = false :=
        List.forall_mem_append.2 ⟨layout.not_isIdentifierPart_lineBreak (depth - 1),
          List.forall_mem_singleton.2 (by decide)⟩
      have hplain : ∀ c ∈ layout.lineBreak (depth - 1) ++ ['\x7d'], GraphQuery.isPlain c = true :=
        List.forall_mem_append.2 ⟨layout.plain_lineBreak (depth - 1),
          List.forall_mem_singleton.2 (by decide)⟩
      obtain ⟨hwords, hend⟩ := bareWords_plain hplain
      refine ⟨hwords.trans ?_, hend⟩
      rw [Token.ofChars_signs hsigns, Token.words_signs]
      rfl

/-- The bare words of well spaced pieces are found piece by piece. -/
theorem bareWords_lex_atoms {ps : List Piece} (hw : WellSpaced ps) (layout : Layout)
    (depth : Nat) :
    Token.bareWords false (Token.lex (atoms layout depth ps)) =
      (ps.flatMap bareWords).map BareWord.text := by
  induction ps generalizing depth with
  | nil => rfl
  | cons p rest ih =>
      obtain ⟨hhere, hend⟩ := bareWords_atomsAt hw.1 layout depth
      rw [lex_atoms_cons hw, Token.bareWords_append, hhere, hend, ih hw.2.2, List.flatMap_cons,
        List.map_append]

end Piece

namespace Fragment

/-- Bare words that a fragment is written with. -/
def bareWords (a : Fragment) (supply : NameSupply) : List BareWord :=
  (a.pieces supply).1.flatMap Piece.bareWords

/-- The bare words found in the text of a fragment are those that it is written with. -/
theorem bareWords?_render (a : Fragment) (layout : Layout) (supply : NameSupply) :
    Text.bareWords? (a.render layout supply).1.text =
      some ((a.bareWords supply).map BareWord.text) := by
  have hspaced := a.wellSpaced_pieces supply
  show (Text.tokens? (String.ofList (Piece.write layout 0 (a.pieces supply).1))).map _ = _
  rw [Text.tokens?, Piece.atoms?_write hspaced, Option.map_some, Option.map_some,
    Piece.bareWords_lex_atoms hspaced, bareWords]

end Fragment

end GraphQuery
