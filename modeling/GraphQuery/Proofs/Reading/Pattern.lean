import GraphQuery.Proofs.Reading.Expr
import GraphQuery.Proofs.Rendering.Pattern

/-!
# Reading patterns

A pattern is read part by part from its tokens. All parts of a node or a relationship are
optional and none of them has an end of its own, so a part is read up to a sign that can only
begin what stands behind it. The lemmas say of each part with which signs the tokens behind it
must not begin (`Clear`). Properties are told from what follows by the reader of expressions:
they are the longest map that the tokens begin with.

Main statements: `PatternReader.node_tokens` and `PatternReader.relationship_tokens`.
-/

set_option autoImplicit false

namespace GraphQuery

open Number (digits)
open Reader (read)
open Text (Token)

/-- Readers that take tokens off a list and leave the others to the next reader. -/
abbrev PatternReader (α : Type) := StateT (List Token) Option α

namespace PatternReader

/-- Reads a sign. -/
def sign (c : Char) : PatternReader Unit
  | .sign d :: ts => if d = c then some ((), ts) else none
  | _ => none

/-- Reads a variable, if one comes first. -/
def var : PatternReader (Option Identifier)
  | .word w :: ts => some (Identifier.of? (String.ofList w), ts)
  | ts => some (none, ts)

/-- Reads quoted names, as long as the mark stands before them. -/
def names (mark : Char) : PatternReader (List String)
  | .sign c :: .quoted q name :: ts =>
      if c = mark then
        (names mark ts).map fun (more, ts) => (String.ofList name :: more, ts)
      else some ([], .sign c :: .quoted q name :: ts)
  | ts => some ([], ts)

/-- Reads the types of a relationship. -/
def types : PatternReader (List String)
  | .sign ':' :: .quoted _ first :: ts =>
      (names '|' ts).map fun (more, ts) => (String.ofList first :: more, ts)
  | ts => some ([], ts)

/-- The number with the given digits. -/
def number (ds : List Char) : Nat := Nat.ofDigitChars 10 ds 0

/-- Reads a length, if one comes first. -/
def length : PatternReader (Option Length)
  | .sign '*' :: .word low :: .sign '.' :: .sign '.' :: .word high :: ts =>
      some (some (.between (number low) (number high)), ts)
  | .sign '*' :: .word low :: .sign '.' :: .sign '.' :: ts =>
      some (some (.atLeast (number low)), ts)
  | .sign '*' :: .word n :: ts => some (some (.exactly (number n)), ts)
  | .sign '*' :: .sign '.' :: .sign '.' :: .word high :: ts =>
      some (some (.atMost (number high)), ts)
  | .sign '*' :: ts => some (some .any, ts)
  | ts => some (none, ts)

/-- Reads the longest map of at most the given number of tokens; without one there are no
properties. -/
noncomputable def mapWithin : Nat → PatternReader (List (String × Expr))
  | 0, ts => some ([], ts)
  | n + 1, ts =>
      match read ⟨[], .expecting⟩ (ts.take (n + 1)) with
      | some (.map entries) => some (entries, ts.drop (n + 1))
      | _ => mapWithin n ts

/-- Reads the properties of a pattern. -/
noncomputable def properties : PatternReader (List (String × Expr)) := fun ts =>
  mapWithin ts.length ts

/-- Reads a node. -/
noncomputable def node : PatternReader NodePattern := do
  sign '('
  let var ← var
  let labels ← names ':'
  let properties ← properties
  sign ')'
  return ⟨var, labels, properties⟩

/-- Reads the left end of an arrow, and tells whether it is the tip. -/
def tail : PatternReader Bool
  | .sign '<' :: .sign '-' :: ts => some (true, ts)
  | .sign '-' :: ts => some (false, ts)
  | _ => none

/-- Reads the right end of an arrow, and tells its direction. -/
def head (left : Bool) : PatternReader Direction
  | .sign '-' :: .sign '>' :: ts => if left then none else some (.right, ts)
  | .sign '-' :: ts => some (if left then .left else .both, ts)
  | _ => none

/-- Reads what stands in brackets between the ends of an arrow. -/
noncomputable def bracketed : PatternReader (Direction → RelationshipPattern) := do
  sign '['
  let var ← var
  let types ← types
  let length ← length
  let properties ← properties
  sign ']'
  return fun direction => ⟨direction, var, types, length, properties⟩

/-- Reads what stands between the ends of an arrow, if there is anything. -/
noncomputable def body : PatternReader (Direction → RelationshipPattern)
  | .sign '[' :: ts => bracketed (.sign '[' :: ts)
  | ts => some (fun direction => ⟨direction, none, [], none, []⟩, ts)

/-- Reads a relationship. -/
noncomputable def relationship : PatternReader RelationshipPattern := do
  let left ← tail
  let inside ← body
  let direction ← head left
  return inside direction

/-- What a reader finds is passed on to the next one. -/
theorem bind_eq {α β : Type} {p : PatternReader α} {a : α} {ts us : List Token}
    (h : p ts = some (a, us)) (next : α → PatternReader β) : (p >>= next) ts = next a us := by
  show (p ts).bind (fun found => next found.1 found.2) = _
  rw [h, Option.bind_some]

theorem sign_cons (c : Char) (ts : List Token) : sign c (.sign c :: ts) = some ((), ts) :=
  if_pos rfl

/-! ## Where parts end -/

/-- The tokens begin with a sign, and with none of the given ones, or there are no tokens. -/
def Clear (signs : List Char) : List Token → Prop
  | [] => True
  | .sign c :: _ => c ∉ signs
  | _ => False

section Parts

variable {signs : List Char} {ts : List Token}

theorem Clear.mono {fewer : List Char} (hsub : fewer ⊆ signs) (h : Clear signs ts) :
    Clear fewer ts := by
  cases ts with
  | nil => trivial
  | cons t rest =>
      cases t with
      | sign c => exact fun hc => h (hsub hc)
      | word _ | quoted _ _ => exact h

/-- What does not begin with certain signs is at its end, or begins with another sign. -/
theorem Clear.cases (h : Clear signs ts) :
    ts = [] ∨ ∃ c rest, ts = .sign c :: rest ∧ ∀ d ∈ signs, c ≠ d := by
  cases ts with
  | nil => exact .inl rfl
  | cons t rest =>
      cases t with
      | sign c => exact .inr ⟨c, rest, rfl, fun d hd heq => h (heq ▸ hd)⟩
      | word _ | quoted _ _ => exact h.elim

/-! ## Variables, labels and types -/

/-- An optional variable is read back. -/
theorem var_tokens (h : Clear signs ts) (id : Option Identifier) :
    var ((variablePieces id).flatMap Piece.tokens ++ ts) = some (id, ts) := by
  cases id with
  | none =>
      rcases h.cases with rfl | ⟨c, rest, rfl, -⟩
      · rfl
      · rfl
  | some id =>
      rw [variablePieces, List.flatMap_singleton, Piece.tokens_name, List.singleton_append, var,
        String.ofList_toList, Identifier.of?_text]

/-- Tokens of names with a mark before each. -/
def markedNames (mark : Char) (labels : List String) : List Token :=
  labels.flatMap fun label => [.sign mark, .quoted .backtick label.toList]

/-- Names behind marks are read back. -/
theorem names_tokens {mark : Char} (h : Clear [mark] ts) (labels : List String) :
    names mark (markedNames mark labels ++ ts) = some (labels, ts) := by
  induction labels with
  | nil =>
      show names mark ts = _
      rcases h.cases with rfl | ⟨c, rest, rfl, hc⟩
      · rfl
      · -- another sign than the mark, so it makes no difference what follows it
        unfold names
        split
        · next heq =>
            cases heq
            rw [if_neg (hc mark List.mem_cons_self)]
        · rfl
  | cons label rest ih =>
      have htokens : markedNames mark (label :: rest) ++ ts =
          .sign mark :: .quoted .backtick label.toList :: (markedNames mark rest ++ ts) := rfl
      rw [htokens, names, if_pos rfl, ih, Option.map_some, String.ofList_toList]

theorem flatMap_tokens_labelPieces (labels : List String) :
    (labelPieces labels).flatMap Piece.tokens = markedNames ':' labels := by
  rw [labelPieces, List.flatMap_assoc]
  rfl

/-- The types of a relationship are read back. -/
theorem types_tokens (h : Clear [':', '|'] ts) (labels : List String) :
    types ((typePieces labels).flatMap Piece.tokens ++ ts) = some (labels, ts) := by
  cases labels with
  | nil =>
      show types ts = _
      rcases h.cases with rfl | ⟨c, rest, rfl, hc⟩
      · rfl
      · simp [types, hc ':' (by decide)]
  | cons first rest =>
      have htokens : (typePieces (first :: rest)).flatMap Piece.tokens ++ ts =
          .sign ':' :: .quoted .backtick first.toList :: (markedNames '|' rest ++ ts) := by
        rw [typePieces, List.flatMap_cons, List.flatMap_cons, List.flatMap_assoc]
        rfl
      have hnames := names_tokens (h.mono (List.subset_cons_self ':' ['|'])) rest
      rw [htokens, types, hnames, Option.map_some, String.ofList_toList]

/-! ## Lengths -/

theorem number_digits (n : Nat) : number (digits n) = n := by
  simp [number, digits]

/-- Digits before another sign are a word of their own. -/
theorem ofChars_digits_append (n : Nat) {cs : List Char}
    (hcs : cs.head?.any isIdentifierPart = false) :
    Token.ofChars (digits n ++ cs) = .word (digits n) :: Token.ofChars cs := by
  have hdigits := Token.lex_word (Number.digits_ne_nil n) fun c hc =>
    isIdentifierPart_of_isDigit (Number.allDigits_digits n c hc)
  rw [Token.ofChars, List.map_append, Token.lex_append]
  · exact congrArg (· ++ Token.ofChars cs) hdigits
  · intro _
    cases cs with
    | nil => rfl
    | cons c rest => exact hcs

/-- Tokens of a length. -/
def lengthTokens : Length → List Token
  | .any => [.sign '*']
  | .exactly n => [.sign '*', .word (digits n)]
  | .atLeast n => [.sign '*', .word (digits n), .sign '.', .sign '.']
  | .atMost n => [.sign '*', .sign '.', .sign '.', .word (digits n)]
  | .between low high =>
      [.sign '*', .word (digits low), .sign '.', .sign '.', .word (digits high)]

theorem ofChars_digits (n : Nat) : Token.ofChars (digits n) = [.word (digits n)] := by
  have h : Token.ofChars (digits n ++ []) = [.word (digits n)] := ofChars_digits_append n rfl
  rwa [List.append_nil] at h

/-- The text of a length is read as its signs and numbers. -/
theorem tokens_lengthText (l : Length) : (Piece.word l.text).tokens = lengthTokens l := by
  show Token.ofChars l.text.toList = lengthTokens l
  have hnatural : ∀ n, (Number.naturalText n).toList = digits n :=
    fun n => String.toList_ofList
  cases l with
  | any => rfl
  | exactly n =>
      rw [Length.text, String.toList_append, hnatural]
      exact (Token.ofChars_sign (by decide) _).trans (congrArg _ (ofChars_digits n))
  | atLeast n =>
      rw [Length.text, String.toList_append, String.toList_append, hnatural, List.append_assoc]
      exact (Token.ofChars_sign (by decide) _).trans (congrArg _ (ofChars_digits_append n rfl))
  | atMost n =>
      rw [Length.text, String.toList_append, hnatural]
      show Token.ofChars ('*' :: '.' :: '.' :: digits n) = _
      rw [Token.ofChars_sign (by decide), Token.ofChars_sign (by decide),
        Token.ofChars_sign (by decide), ofChars_digits]
      rfl
  | between low high =>
      rw [Length.text, String.toList_append, String.toList_append, String.toList_append, hnatural,
        hnatural, List.append_assoc, List.append_assoc]
      show Token.ofChars ('*' :: (digits low ++ '.' :: '.' :: digits high)) = _
      rw [Token.ofChars_sign (by decide), ofChars_digits_append low rfl,
        Token.ofChars_sign (by decide), Token.ofChars_sign (by decide), ofChars_digits]
      rfl

/-- A length is read back, or that there is none. -/
theorem length_tokens (h : Clear ['*', '.'] ts) (l : Option Length) :
    length ((lengthPieces l).flatMap Piece.tokens ++ ts) = some (l, ts) := by
  cases l with
  | none =>
      show length ts = _
      rcases h.cases with rfl | ⟨c, rest, rfl, hc⟩
      · rfl
      · simp [length, hc '*' (by decide)]
  | some l =>
      have htokens : (lengthPieces (some l)).flatMap Piece.tokens = lengthTokens l := by
        rw [lengthPieces, Length.pieces, List.flatMap_singleton, tokens_lengthText]
      rw [htokens]
      -- a bound that is missing would have to stand at the beginning of what follows
      rcases h.cases with rfl | ⟨c, rest, rfl, hc⟩
      · cases l <;> simp [lengthTokens, length, number_digits]
      · have hpoint : c ≠ '.' := hc '.' (by decide)
        cases l <;> simp [lengthTokens, length, number_digits, hpoint]

/-! ## Properties -/

/-- The entries of a map are read up to the bracket that closes the pattern around it. -/
theorem mapWithin_tokens {as : List Token} {c : Char} {entries : List (String × Expr)}
    (hread : read ⟨[], .expecting⟩ as = some (.map entries))
    (hend : ∀ us, read ⟨[], .expecting⟩ (as ++ .sign c :: us) = none) (ts : List Token)
    (n : Nat) :
    mapWithin (as.length + n) (as ++ .sign c :: ts) = some (entries, .sign c :: ts) := by
  -- on the number of tokens behind the map that are tried with it
  induction n with
  | zero =>
      cases as with
      | nil => cases hread
      | cons a rest =>
          show mapWithin (rest.length + 1) (a :: rest ++ .sign c :: ts) = _
          have htake : (a :: rest ++ .sign c :: ts).take (rest.length + 1) = a :: rest :=
            List.take_left' rfl
          have hdrop : (a :: rest ++ .sign c :: ts).drop (rest.length + 1) = .sign c :: ts :=
            List.drop_left' rfl
          rw [mapWithin, htake, hread, hdrop]
  | succ n ih =>
      have htake : (as ++ .sign c :: ts).take (as.length + n + 1) = as ++ .sign c :: ts.take n := by
        rw [Nat.add_assoc, List.take_length_add_append, List.take_succ_cons]
      show mapWithin (as.length + n + 1) _ = _
      rw [mapWithin, htake, hend, ih]

theorem mapWithin_closing {c : Char} (hc : c = ')' ∨ c = ']') (ts : List Token) (n : Nat) :
    mapWithin n (.sign c :: ts) = some ([], .sign c :: ts) := by
  induction n with
  | zero => rfl
  | succ n ih =>
      have hread : read ⟨[], .expecting⟩ ((.sign c :: ts).take (n + 1)) = none := by
        rcases hc with rfl | rfl
        · rfl
        · rfl
      rw [mapWithin, hread, ih]

/-- Properties are read back but for the kinds in them. -/
theorem properties_tokens {es : List (String × Expr)} {c : Char} (hc : c = ')' ∨ c = ']')
    (hes : ∀ var ∈ Expr.entryNames es, var.text ∉ reservedWords) (after : Bool) :
    properties ((propertyPieces after es).flatMap Piece.tokens ++ .sign c :: ts) =
      some (Expr.mapEntries Placeholder.forgetKind es, .sign c :: ts) := by
  cases es with
  | nil => exact mapWithin_closing hc ts _
  | cons entry rest =>
      have hreads : Expr.Reads (.map (entry :: rest)) := Expr.reads (.map (entry :: rest)) hes
      have hspace : ∀ us, read ⟨[], .expecting⟩
          ((propertyPieces after (entry :: rest)).flatMap Piece.tokens ++ us) =
            read ⟨[], .expecting⟩ ((Expr.map (entry :: rest)).tokens ++ us) := by
        intro us
        cases after with
        | false => rfl
        | true => rfl
      have hread : read ⟨[], .expecting⟩
          ((propertyPieces after (entry :: rest)).flatMap Piece.tokens) =
            some (.map (Expr.mapEntries Placeholder.forgetKind (entry :: rest))) := by
        have h := (hspace []).trans (hreads [] [] trivial)
        rwa [List.append_nil] at h
      have hend : ∀ us, read ⟨[], .expecting⟩
          ((propertyPieces after (entry :: rest)).flatMap Piece.tokens ++ .sign c :: us) =
            none := by
        intro us
        rcases hc with rfl | rfl
        · exact (hspace _).trans (hreads [] _ trivial)
        · exact (hspace _).trans (hreads [] _ trivial)
      have h := mapWithin_tokens hread hend ts (ts.length + 1)
      rwa [← List.length_cons, ← List.length_append] at h

/-! ## What parts begin with -/

/-- Properties begin with none of the signs that a pattern goes on with. -/
theorem clear_properties {c : Char} (hspace : ' ' ∉ signs) (hbrace : '\x7b' ∉ signs)
    (hc : c ∉ signs) (after : Bool) (es : List (String × Expr)) :
    Clear signs ((propertyPieces after es).flatMap Piece.tokens ++ .sign c :: ts) := by
  cases es with
  | nil => exact hc
  | cons entry rest =>
      cases after with
      | false => exact hbrace
      | true => exact hspace

theorem clear_labels (hmark : ':' ∉ signs) (h : Clear signs ts) (labels : List String) :
    Clear signs (markedNames ':' labels ++ ts) := by
  cases labels with
  | nil => exact h
  | cons label rest => exact hmark

theorem clear_types (hmark : ':' ∉ signs) (h : Clear signs ts) (labels : List String) :
    Clear signs ((typePieces labels).flatMap Piece.tokens ++ ts) := by
  cases labels with
  | nil => exact h
  | cons first rest => exact hmark

theorem clear_length (hstar : '*' ∉ signs) (h : Clear signs ts) (l : Option Length) :
    Clear signs ((lengthPieces l).flatMap Piece.tokens ++ ts) := by
  cases l with
  | none => exact h
  | some l =>
      rw [lengthPieces, Length.pieces, List.flatMap_singleton, tokens_lengthText]
      cases l <;> exact hstar

end Parts

end PatternReader

/-! ## Nodes and relationships -/

/-- The node with all placeholders at the kind `any`. -/
def NodePattern.forgetKinds (n : NodePattern) : NodePattern :=
  n.mapPlaceholders Placeholder.forgetKind

/-- Tokens of a node. -/
def NodePattern.tokens (n : NodePattern) : List Token := n.pieces.flatMap Piece.tokens

namespace RelationshipPattern

/-- The relationship with all placeholders at the kind `any`. -/
def forgetKinds (r : RelationshipPattern) : RelationshipPattern :=
  r.mapPlaceholders Placeholder.forgetKind

/-- Tokens of a relationship. -/
def tokens (r : RelationshipPattern) : List Token := r.pieces.flatMap Piece.tokens

theorem tokens_append (r : RelationshipPattern) (ts : List Token) :
    r.tokens ++ ts = (Piece.word r.direction.tail).tokens ++
      ((if r.isBare then [] else r.bodyPieces).flatMap Piece.tokens ++
        ((Piece.word r.direction.head).tokens ++ ts)) := by
  rw [tokens, pieces, List.flatMap_append, List.flatMap_cons, List.flatMap_singleton,
    List.append_assoc, List.append_assoc]

theorem tokens_ne_nil (r : RelationshipPattern) : r.tokens ≠ [] := by
  rw [← List.append_nil r.tokens, tokens_append]
  cases r.direction with
  | right | left | both => exact List.cons_ne_nil _ _

end RelationshipPattern

namespace PatternReader

section Patterns

variable {ts : List Token}

/-- A node is read from its tokens, whatever follows. -/
theorem node_tokens {n : NodePattern}
    (h : ∀ var ∈ Expr.entryNames n.properties, var.text ∉ reservedWords) :
    node (n.tokens ++ ts) = some (n.forgetKinds, ts) := by
  have htokens : n.tokens ++ ts = .sign '(' :: ((variablePieces n.var).flatMap Piece.tokens ++
      (markedNames ':' n.labels ++
        ((propertyPieces (n.var.isSome || !n.labels.isEmpty) n.properties).flatMap Piece.tokens ++
          .sign ')' :: ts))) := by
    simp only [NodePattern.tokens, NodePattern.pieces, List.cons_append, List.flatMap_cons,
      List.flatMap_append, List.append_assoc, flatMap_tokens_labelPieces]
    rfl
  have hproperties : Clear [':']
      ((propertyPieces (n.var.isSome || !n.labels.isEmpty) n.properties).flatMap Piece.tokens ++
        .sign ')' :: ts) := clear_properties (by decide) (by decide) (by decide) _ _
  have hlabels : Clear [] _ :=
    clear_labels (by decide) (hproperties.mono (by decide)) n.labels
  rw [htokens, node]
  refine (bind_eq (sign_cons '(' _) _).trans ?_
  refine (bind_eq (var_tokens hlabels n.var) _).trans ?_
  refine (bind_eq (names_tokens hproperties n.labels) _).trans ?_
  refine (bind_eq (properties_tokens (.inl rfl) h _) _).trans ?_
  exact bind_eq (sign_cons ')' ts) _

/-- What stands between the brackets of a relationship is read back. -/
theorem bracketed_tokens {r : RelationshipPattern}
    (h : ∀ var ∈ Expr.entryNames r.properties, var.text ∉ reservedWords) :
    bracketed (r.bodyPieces.flatMap Piece.tokens ++ ts) =
      some (fun direction => { r.forgetKinds with direction := direction }, ts) := by
  have htokens : r.bodyPieces.flatMap Piece.tokens ++ ts =
      .sign '[' :: ((variablePieces r.var).flatMap Piece.tokens ++
        ((typePieces r.types).flatMap Piece.tokens ++
          ((lengthPieces r.length).flatMap Piece.tokens ++
            ((propertyPieces (r.var.isSome || !r.types.isEmpty || r.length.isSome)
              r.properties).flatMap Piece.tokens ++ .sign ']' :: ts)))) := by
    simp only [RelationshipPattern.bodyPieces, List.cons_append, List.flatMap_cons,
      List.flatMap_append, List.append_assoc]
    rfl
  have hproperties : Clear [':', '|', '*', '.']
      ((propertyPieces (r.var.isSome || !r.types.isEmpty || r.length.isSome)
        r.properties).flatMap Piece.tokens ++ .sign ']' :: ts) :=
    clear_properties (by decide) (by decide) (by decide) _ _
  have hlength : Clear [':', '|'] _ :=
    clear_length (by decide) (hproperties.mono (by decide)) r.length
  have htypes : Clear [] _ := clear_types (by decide) (hlength.mono (by decide)) r.types
  rw [htokens, bracketed]
  refine (bind_eq (sign_cons '[' _) _).trans ?_
  refine (bind_eq (var_tokens htypes r.var) _).trans ?_
  refine (bind_eq (types_tokens hlength r.types) _).trans ?_
  refine (bind_eq (length_tokens (hproperties.mono (by decide)) r.length) _).trans ?_
  refine (bind_eq (properties_tokens (.inr rfl) h _) _).trans ?_
  exact bind_eq (sign_cons ']' ts) _

/-- What is left out between the ends of an arrow is a relationship without parts. -/
theorem body_tokens {r : RelationshipPattern}
    (h : ∀ var ∈ Expr.entryNames r.properties, var.text ∉ reservedWords)
    (hts : Clear ['['] ts) :
    body ((if r.isBare then [] else r.bodyPieces).flatMap Piece.tokens ++ ts) =
      some (fun direction => { r.forgetKinds with direction := direction }, ts) := by
  cases hbare : r.isBare with
  | false =>
      -- the brackets are there, so the other reader begins at once
      exact bracketed_tokens h
  | true =>
      obtain ⟨direction, var, types, length, properties⟩ := r
      simp only [RelationshipPattern.isBare, Bool.and_eq_true, Option.isNone_iff_eq_none,
        List.isEmpty_iff] at hbare
      obtain ⟨⟨⟨rfl, rfl⟩, rfl⟩, rfl⟩ := hbare
      show body ts = _
      rcases hts.cases with rfl | ⟨c, rest, rfl, hc⟩
      · rfl
      · simp [body, hc '[' (by decide)]
        rfl

/-- The left end of an arrow tells whether it points to the left. -/
theorem tail_tokens (direction : Direction) :
    tail ((Piece.word direction.tail).tokens ++ ts) = some (decide (direction = .left), ts) := by
  cases direction with
  | right | left | both => rfl

/-- The right end of an arrow tells the rest of its direction. -/
theorem head_tokens (hts : Clear ['>'] ts) (direction : Direction) :
    head (decide (direction = .left)) ((Piece.word direction.head).tokens ++ ts) =
      some (direction, ts) := by
  cases direction with
  | right => rfl
  | left | both =>
      rcases hts.cases with rfl | ⟨c, rest, rfl, hc⟩
      · rfl
      · show head _ (.sign '-' :: .sign c :: rest) = _
        simp [head, hc '>' (by decide)]

/-- A relationship is read from its tokens, whatever follows. -/
theorem relationship_tokens {r : RelationshipPattern}
    (h : ∀ var ∈ Expr.entryNames r.properties, var.text ∉ reservedWords)
    (hts : Clear ['>'] ts) : relationship (r.tokens ++ ts) = some (r.forgetKinds, ts) := by
  have hhead : Clear ['['] ((Piece.word r.direction.head).tokens ++ ts) := by
    cases r.direction with
    | right | left | both => exact List.not_mem_cons_of_ne_of_not_mem (by decide) List.not_mem_nil
  rw [r.tokens_append, relationship]
  refine (bind_eq (tail_tokens r.direction) _).trans ?_
  refine (bind_eq (body_tokens h hhead) _).trans ?_
  exact bind_eq (head_tokens hts r.direction) _

end Patterns

end PatternReader

end GraphQuery
