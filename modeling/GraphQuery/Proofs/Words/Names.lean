import GraphQuery.Proofs.Reading.Nodes
import GraphQuery.Proofs.Words.Bare
import GraphQuery.Proofs.Words.Numerals

/-!
# Words of the language and names

Everything that a rendering writes bare is either spelt out by the renderer, in words of a
fixed vocabulary and in numbers, or it is one of the names in the syntax: a variable, an
alias, or a column that a conditional returns. The names are listed from the syntax alone, in
the order in which the text shows them.

Main statement: `Fragment.voiced_pieces`.
-/

set_option autoImplicit false

namespace GraphQuery

open Text (Token)

/-! ## Vocabulary -/

/-- Words that the text of queries is made of: those of expressions and those of clauses. -/
def grammarWords : List String :=
  reservedWords ++ ["MATCH", "OPTIONAL", "WHERE", "UNWIND", "AS", "CREATE", "SET", "DETACH",
    "DELETE", "RETURN", "DISTINCT", "ORDER", "BY", "ASC", "DESC", "SKIP", "LIMIT", "CALL",
    "UNION", "ALL"]

/-- Whether a word is one of the vocabulary or begins like a number. -/
def Text.isGrammarWord (word : String) : Bool :=
  word.toList.head?.any Char.isDigit || grammarWords.contains word

namespace Piece

/-- The name a piece is, if it is one. -/
def name? : Piece → Option Identifier
  | .name id => some id
  | _ => none

/-- Whether a piece is no name, and its words are ones of the language. -/
def isFixed : Piece → Bool
  | .word text => (Token.words (Token.ofChars text.toList)).all Text.isGrammarWord
  | .name _ => false
  | _ => true

/-- Pieces whose words are ones of the language and whose names are the given ones. -/
structure Voiced (names : List Identifier) (ps : List Piece) : Prop where
  fixed : ∀ p ∈ ps, p.isFixed = true ∨ ∃ id, p = .name id
  names_eq : ps.filterMap name? = names

/-! ## Voices of lists -/

namespace Voiced

variable {ns ms : List Identifier} {xs ys : List Piece}

theorem nil : Voiced [] [] := ⟨List.forall_mem_nil _, rfl⟩

/-- Names come in the order of the pieces. -/
theorem append (hx : Voiced ns xs) (hy : Voiced ms ys) : Voiced (ns ++ ms) (xs ++ ys) := by
  refine ⟨List.forall_mem_append.2 ⟨hx.fixed, hy.fixed⟩, ?_⟩
  rw [List.filterMap_append, hx.names_eq, hy.names_eq]

theorem cons {p : Piece} (hp : p.isFixed = true) (h : Voiced ns xs) : Voiced ns (p :: xs) := by
  refine ⟨List.forall_mem_cons.2 ⟨.inl hp, h.fixed⟩, ?_⟩
  have hname : p.name? = none := by
    cases p with
    | name id => cases hp
    | word _ | selector _ | quoted _ _ | placeholder _ | gap | lineBreak | openBody | closeBody =>
        rfl
  rw [List.filterMap_cons_none hname, h.names_eq]

theorem name (id : Identifier) (h : Voiced ns xs) : Voiced (id :: ns) (.name id :: xs) := by
  refine ⟨List.forall_mem_cons.2 ⟨.inr ⟨id, rfl⟩, h.fixed⟩, ?_⟩
  exact congrArg (id :: ·) h.names_eq

theorem concat {p : Piece} (h : Voiced ns xs) (hp : p.isFixed = true) :
    Voiced ns (xs ++ [p]) := by
  have happend := h.append (cons hp nil)
  rwa [List.append_nil] at happend

/-- Pieces without names before others. -/
theorem before (hx : Voiced [] xs) (hy : Voiced ns ys) : Voiced ns (xs ++ ys) :=
  hx.append hy

/-- Pieces without names behind others. -/
theorem behind (hx : Voiced ns xs) (hy : Voiced [] ys) : Voiced ns (xs ++ ys) := by
  have happend := hx.append hy
  rwa [List.append_nil] at happend

theorem parenthesized (needed : Bool) (h : Voiced ns xs) : Voiced ns (parenthesized needed xs) := by
  cases needed with
  | false => exact h
  | true => exact cons (by decide) (h.concat (by decide))

section Families

variable {α : Type} {f : α → List Piece} {names : α → List Identifier}

/-- The names along a list come in its order. -/
theorem flatMap (h : ∀ a, Voiced (names a) (f a)) (as : List α) :
    Voiced (as.flatMap names) (as.flatMap f) := by
  induction as with
  | nil => exact nil
  | cons a rest ih => exact (h a).append ih

theorem flatMap_fixed (h : ∀ a, Voiced [] (f a)) (as : List α) : Voiced [] (as.flatMap f) := by
  induction as with
  | nil => exact nil
  | cons a rest ih => exact (h a).before ih

theorem commaMap (h : ∀ a, Voiced (names a) (f a)) (as : List α) :
    Voiced (as.flatMap names) (separated comma (as.map f)) := by
  induction as with
  | nil => exact nil
  | cons a rest ih =>
      cases rest with
      | nil =>
          rw [List.flatMap_singleton]
          exact h a
      | cons b rest =>
          have hcomma : Voiced [] comma := cons (by decide) nil
          exact ((h a).behind hcomma).append ih

end Families

end Voiced

theorem isFixed_of_digitLed {text : String} (h : DigitLed text.toList) :
    (Piece.word text).isFixed = true := by
  refine List.all_eq_true.2 fun word hword => ?_
  obtain ⟨t, ht, hchars⟩ := List.mem_filterMap.1 hword
  cases t with
  | word chars =>
      cases hchars
      rw [Text.isGrammarWord, String.toList_ofList, h.head_word chars ht, Bool.true_or]
  | sign c => cases hchars
  | quoted q content => cases hchars

/-- A number is fixed by the language. -/
theorem isFixed_naturalText (n : Nat) : (Piece.word (Number.naturalText n)).isFixed = true := by
  refine isFixed_of_digitLed ?_
  rw [Number.naturalText, String.toList_ofList]
  exact (Number.allDigits_digits n).digitLed (Number.digits_ne_nil n)

end Piece

open Piece (Voiced)

/-! ## Expressions -/

/-- A literal names nothing. -/
theorem Literal.voiced_pieces (value : Literal) : Voiced [] value.pieces := by
  cases value with
  | null => exact .cons (by decide) .nil
  | bool b => cases b <;> exact .cons (by decide) .nil
  | int n =>
      refine .cons (Piece.isFixed_of_digitLed ?_) .nil
      rw [Number.integerText, String.toList_ofList]
      exact Number.digitLed_signedDigits n
  | float x => exact .cons (Piece.isFixed_of_digitLed (Number.digitLed_text x)) .nil
  | string s => exact .cons rfl .nil

theorem BinaryOp.isFixed_word (op : BinaryOp) : (Piece.word op.word).isFixed = true := by
  cases op <;> decide

namespace Expr

mutual

/-- The names in an expression are its variables. -/
theorem voiced_pieces : ∀ e : Expr, Voiced e.names e.pieces
  | .literal value => value.voiced_pieces
  | .name var => .name var .nil
  | .placeholder p => .cons rfl .nil
  | .call function first rest => by
      have hfirst : Voiced first.names (.quoted .backtick function :: .word "(" :: first.pieces) :=
        .cons rfl (.cons (by decide) (voiced_pieces first))
      exact (hfirst.append (voiced_tailPieces rest)).concat (by decide)
  | .map entries => voiced_mapPieces entries
  | .list items => by
      have hitems : Voiced (listNames items) (.word "[" :: itemPieces items) :=
        .cons (by decide) (voiced_itemPieces items)
      exact hitems.concat (by decide)
  | .property subject key => by
      have hkey : Voiced [] [.word ".", .quoted .backtick key] := .cons (by decide) (.cons rfl .nil)
      exact ((voiced_pieces subject).parenthesized _).behind hkey
  | .index subject position => by
      have hposition : Voiced position.names (.word "[" :: position.pieces) :=
        .cons (by decide) (voiced_pieces position)
      exact (((voiced_pieces subject).parenthesized _).append hposition).concat (by decide)
  | .sliceFrom subject low => by
      have hlow : Voiced low.names (.word "[" :: low.pieces) :=
        .cons (by decide) (voiced_pieces low)
      have hend : Voiced [] [.word "..", .word "]"] := .cons (by decide) (.cons (by decide) .nil)
      exact (((voiced_pieces subject).parenthesized _).append hlow).behind hend
  | .sliceTo subject high => by
      have hhigh : Voiced high.names (.word "[" :: .word ".." :: high.pieces) :=
        .cons (by decide) (.cons (by decide) (voiced_pieces high))
      exact (((voiced_pieces subject).parenthesized _).append hhigh).concat (by decide)
  | .slice subject low high => by
      have hlow : Voiced low.names (.word "[" :: low.pieces) :=
        .cons (by decide) (voiced_pieces low)
      have hhigh : Voiced high.names (.word ".." :: high.pieces) :=
        .cons (by decide) (voiced_pieces high)
      have hsubject := (voiced_pieces subject).parenthesized subject.isOperator
      have hbounds := (hsubject.append hlow).append hhigh
      rw [names, ← List.append_assoc]
      exact hbounds.concat (by decide)
  | .unary .not operand => .cons (by decide) ((voiced_pieces operand).parenthesized _)
  | .unary .isNull operand => ((voiced_pieces operand).parenthesized _).concat (by decide)
  | .unary .isNotNull operand => ((voiced_pieces operand).parenthesized _).concat (by decide)
  | .binary op left right => by
      have hright : Voiced right.names (.gap :: .word op.word :: .gap ::
          Piece.parenthesized right.isOperator right.pieces) :=
        .cons (by decide) (.cons op.isFixed_word (.cons (by decide)
          ((voiced_pieces right).parenthesized _)))
      exact ((voiced_pieces left).parenthesized _).append hright
  | .case condition result more fallback => by
      have hcondition : Voiced condition.names
          (.word "CASE" :: .word " WHEN " :: condition.pieces) :=
        .cons (by decide) (.cons (by decide) (voiced_pieces condition))
      have hresult : Voiced result.names (.word " THEN " :: result.pieces) :=
        .cons (by decide) (voiced_pieces result)
      have hall := ((hcondition.append hresult).append (voiced_armPieces more)).append
        (voiced_fallbackPieces fallback)
      rw [names, ← List.append_assoc, ← List.append_assoc]
      exact hall.concat (by decide)

theorem voiced_itemPieces : ∀ es : List Expr, Voiced (listNames es) (itemPieces es)
  | [] => .nil
  | e :: rest => (voiced_pieces e).append (voiced_tailPieces rest)

theorem voiced_tailPieces : ∀ es : List Expr, Voiced (listNames es) (tailPieces es)
  | [] => .nil
  | e :: rest => by
      have he : Voiced e.names (.word ", " :: e.pieces) := .cons (by decide) (voiced_pieces e)
      exact he.append (voiced_tailPieces rest)

theorem voiced_mapPieces : ∀ es : List (String × Expr), Voiced (entryNames es) (mapPieces es)
  | [] => .cons (by decide) .nil
  | (key, e) :: rest => by
      have he : Voiced e.names (.word "\x7b " :: .quoted .backtick key :: .word ": " :: e.pieces) :=
        .cons (by decide) (.cons rfl (.cons (by decide) (voiced_pieces e)))
      exact (he.append (voiced_entryPieces rest)).concat (by decide)

theorem voiced_entryPieces : ∀ es : List (String × Expr), Voiced (entryNames es) (entryPieces es)
  | [] => .nil
  | (key, e) :: rest => by
      have he : Voiced e.names (.word ", " :: .quoted .backtick key :: .word ": " :: e.pieces) :=
        .cons (by decide) (.cons rfl (.cons (by decide) (voiced_pieces e)))
      exact he.append (voiced_entryPieces rest)

theorem voiced_armPieces : ∀ es : List (Expr × Expr), Voiced (armNames es) (armPieces es)
  | [] => .nil
  | (condition, result) :: rest => by
      have hcondition : Voiced condition.names (.word " WHEN " :: condition.pieces) :=
        .cons (by decide) (voiced_pieces condition)
      have hresult : Voiced result.names (.word " THEN " :: result.pieces) :=
        .cons (by decide) (voiced_pieces result)
      rw [armNames, ← List.append_assoc]
      exact (hcondition.append hresult).append (voiced_armPieces rest)

theorem voiced_fallbackPieces : ∀ e : Option Expr, Voiced (fallbackNames e) (fallbackPieces e)
  | none => .nil
  | some e => .cons (by decide) (voiced_pieces e)

end

end Expr

/-! ## Patterns and projections -/

/-- Names in a node: its variable, then those of its properties. -/
def NodePattern.bareNames (n : NodePattern) : List Identifier :=
  n.var.toList ++ Expr.entryNames n.properties

/-- Names in a relationship: its variable, then those of its properties. -/
def RelationshipPattern.bareNames (r : RelationshipPattern) : List Identifier :=
  r.var.toList ++ Expr.entryNames r.properties

/-- Names in a path. -/
def Path.bareNames (p : Path) : List Identifier :=
  p.start.bareNames ++ p.steps.flatMap fun step => step.1.bareNames ++ step.2.bareNames

/-- Names in a column: those of its expression, then its alias. -/
def Column.bareNames (item : Column) : List Identifier := item.expr.names ++ item.alias?.toList

/-- Names in a projection. -/
def Projection.bareNames (p : Projection) : List Identifier := p.items.flatMap Column.bareNames

theorem voiced_variablePieces (var : Option Identifier) :
    Voiced var.toList (variablePieces var) := by
  cases var with
  | none => exact .nil
  | some id => exact .name id .nil

theorem voiced_propertyPieces (after : Bool) (properties : List (String × Expr)) :
    Voiced (Expr.entryNames properties) (propertyPieces after properties) := by
  have hmap := Expr.voiced_mapPieces properties
  unfold propertyPieces
  split
  · next hempty =>
      rw [List.isEmpty_iff.1 hempty]
      exact .nil
  · split
    · exact .cons (by decide) hmap
    · exact hmap

theorem voiced_labelPieces (labels : List String) : Voiced [] (labelPieces labels) := by
  have hlabel (label : String) : Voiced [] [.word ":", .quoted .backtick label] :=
    .cons (by decide) (.cons rfl .nil)
  exact Voiced.flatMap_fixed hlabel labels

theorem voiced_typePieces (types : List String) : Voiced [] (typePieces types) := by
  cases types with
  | nil => exact .nil
  | cons first rest =>
      have htype (type : String) : Voiced [] [.word "|", .quoted .backtick type] :=
        .cons (by decide) (.cons rfl .nil)
      exact .cons (by decide) (.cons rfl (Voiced.flatMap_fixed htype rest))

theorem voiced_lengthPieces (length : Option Length) : Voiced [] (lengthPieces length) := by
  cases length with
  | none => exact .nil
  | some l => exact .cons (Piece.isFixed_of_digitLed l.digitLed_text) .nil

/-- A node names its variable and what its properties name. -/
theorem NodePattern.voiced_pieces (n : NodePattern) : Voiced n.bareNames n.pieces := by
  have hvar : Voiced n.var.toList (.word "(" :: variablePieces n.var) :=
    .cons (by decide) (voiced_variablePieces n.var)
  have hlabels := hvar.behind (voiced_labelPieces n.labels)
  exact (hlabels.append (voiced_propertyPieces _ n.properties)).concat (by decide)

theorem RelationshipPattern.voiced_pieces (r : RelationshipPattern) :
    Voiced r.bareNames r.pieces := by
  have htail : (Piece.word r.direction.tail).isFixed = true := by cases r.direction <;> decide
  have hhead : (Piece.word r.direction.head).isFixed = true := by cases r.direction <;> decide
  have hbody : Voiced r.bareNames (if r.isBare then [] else r.bodyPieces) := by
    split
    · next hbare =>
        simp only [RelationshipPattern.isBare, Bool.and_eq_true, List.isEmpty_iff,
          Option.isNone_iff_eq_none] at hbare
        rw [RelationshipPattern.bareNames, hbare.1.1.1, hbare.2]
        exact .nil
    · have hvar : Voiced r.var.toList (.word "[" :: variablePieces r.var) :=
        .cons (by decide) (voiced_variablePieces r.var)
      have hlength := (hvar.behind (voiced_typePieces r.types)).behind
        (voiced_lengthPieces r.length)
      exact (hlength.append (voiced_propertyPieces _ r.properties)).concat (by decide)
  exact Voiced.concat (.cons htail hbody) hhead

/-- The names of a path are those along it. -/
theorem Path.voiced_pieces (p : Path) : Voiced p.bareNames p.pieces := by
  have hstep (step : RelationshipPattern × NodePattern) :
      Voiced (step.1.bareNames ++ step.2.bareNames) (step.1.pieces ++ step.2.pieces) :=
    step.1.voiced_pieces.append step.2.voiced_pieces
  exact p.start.voiced_pieces.append (Voiced.flatMap hstep p.steps)

theorem voiced_filterPieces (filter : Option Expr) :
    Voiced (Expr.fallbackNames filter) (filterPieces filter) := by
  cases filter with
  | none => exact .nil
  | some condition => exact .cons (by decide) condition.voiced_pieces

theorem Column.voiced_pieces (item : Column) : Voiced item.bareNames item.pieces := by
  obtain ⟨e, alias?⟩ := item
  cases alias? with
  | none =>
      rw [Column.bareNames, Option.toList_none, List.append_nil]
      exact e.voiced_pieces
  | some id =>
      have halias : Voiced [id] [.word " AS ", .name id] := .cons (by decide) (.name id .nil)
      exact e.voiced_pieces.append halias

theorem voiced_columnPieces (items : List Column) :
    Voiced (items.flatMap Column.bareNames) (columnPieces items) :=
  Voiced.commaMap Column.voiced_pieces items

/-- A projection names what its columns name, and their aliases. -/
theorem Projection.voiced_pieces (p : Projection) : Voiced p.bareNames p.pieces := by
  have hselection : Voiced p.bareNames p.selection.pieces := by
    unfold Projection.bareNames Projection.items
    cases p.selection with
    | everything more =>
        cases more with
        | nil => exact .cons (by decide) .nil
        | cons first rest =>
            exact .cons (by decide) (.cons (by decide) (voiced_columnPieces (first :: rest)))
    | items first more => exact voiced_columnPieces (first :: more)
  unfold Projection.pieces
  split
  · exact .cons (by decide) hselection
  · exact hselection

theorem SortKey.voiced_pieces (item : SortKey) : Voiced item.expr.names item.pieces := by
  have hword : (Piece.word (if item.descending then " DESC" else " ASC")).isFixed = true := by
    cases item.descending <;> decide
  exact item.expr.voiced_pieces.concat hword

/-! ## Clauses of a conditional -/

namespace Choice

theorem voiced_whenPieces (conditions : List Expr) (number : Nat) :
    Voiced (conditions.flatMap Expr.names) (whenPieces conditions number) := by
  induction conditions generalizing number with
  | nil => exact .nil
  | cons condition rest ih =>
      have hcondition : Voiced condition.names (.word " WHEN " :: condition.pieces) :=
        .cons (by decide) condition.voiced_pieces
      have hrest : Voiced (rest.flatMap Expr.names) (.word " THEN " ::
          .word (Number.naturalText number) :: whenPieces rest (number + 1)) :=
        .cons (by decide) (.cons (Piece.isFixed_naturalText number) (ih (number + 1)))
      exact hcondition.append hrest

theorem voiced_scopePieces (keepsScope : Bool) (selector : Identifier) :
    Voiced [] (scopePieces keepsScope selector) := by
  cases keepsScope with
  | true => exact .cons (by decide) .nil
  | false => exact .cons rfl .nil

theorem voiced_selectorPieces (keepsScope : Bool) (selector : Identifier)
    (conditions : List Expr) :
    Voiced (conditions.flatMap Expr.names) (selectorPieces keepsScope selector conditions) := by
  have hscope : Voiced [] (.word "WITH " :: (if keepsScope then [.word "*, "] else [])) := by
    cases keepsScope with
    | true => exact .cons (by decide) (.cons (by decide) .nil)
    | false => exact .cons (by decide) .nil
  have hwhen : Voiced (conditions.flatMap Expr.names) (.word "CASE" :: whenPieces conditions 0) :=
    .cons (by decide) (voiced_whenPieces conditions 0)
  have hend : Voiced [] [.word " ELSE ", .word (Number.naturalText conditions.length),
      .word " END AS ", .selector selector] :=
    .cons (by decide) (.cons (Piece.isFixed_naturalText _) (.cons (by decide) (.cons rfl .nil)))
  exact (hscope.before hwhen).behind hend

/-- A guard names its selector only, which is no name of the user. -/
theorem voiced_guardPieces (keepsScope : Bool) (selector : Identifier) (number : Nat) :
    Voiced [] (guardPieces keepsScope selector number) := by
  have hscope := voiced_scopePieces keepsScope selector
  have htest : Voiced [] [.word " WHERE ", .selector selector, .word " = ",
      .word (Number.naturalText number), .lineBreak] :=
    .cons (by decide) (.cons rfl (.cons (by decide) (.cons (Piece.isFixed_naturalText number)
      (.cons rfl .nil))))
  have hsecond : Voiced [] (.lineBreak :: .word "WITH " :: scopePieces keepsScope selector) :=
    .cons rfl (.cons (by decide) hscope)
  have hfirst : Voiced [] (.word "WITH " :: scopePieces keepsScope selector) :=
    .cons (by decide) hscope
  exact (hfirst.before hsecond).before htest

theorem voiced_returnPieces (columns : List Identifier) :
    Voiced columns (returnPieces columns) := by
  have hnames : Voiced (columns.flatMap fun id => [id])
      (Piece.separated comma (columns.map fun id => [.name id])) :=
    Voiced.commaMap (fun id => .name id .nil) columns
  rw [List.flatMap_singleton'] at hnames
  exact .cons (by decide) hnames

end Choice

theorem UnionMode.voiced_pieces (mode : UnionMode) : Voiced [] mode.pieces := by
  have hwords : (Piece.word mode.words).isFixed = true := by cases mode <;> decide
  exact .cons rfl (.cons hwords (.cons rfl .nil))

/-! ## Clauses, queries and statements -/

mutual

/-- Names in a clause. -/
def Clause.bareNames : Clause → List Identifier
  | .matching _ first more filter =>
      (first :: more).flatMap Path.bareNames ++ Expr.fallbackNames filter
  | .passing projection filter => projection.bareNames ++ Expr.fallbackNames filter
  | .unwind list element => list.names ++ [element]
  | .create path => path.bareNames
  | .setKey var _ value => var :: value.names
  | .delete _ subject => subject.names
  | .returning projection => projection.bareNames
  | .orderBy items => items.flatMap fun item => item.expr.names
  | .skip count => count.names
  | .limit count => count.names
  | .subquery body => body.bareNames
  | .choice arms => arms.bareNames

/-- Names in a conditional: those of the conditions and of the arms, then its columns. -/
def Choice.bareNames : Choice → List Identifier
  | ⟨cases, fallback, columns⟩ =>
      (cases.map Prod.fst).flatMap Expr.names ++ Choice.armNames cases ++ fallback.bareNames ++
        columns

/-- Names in the arms that have a condition. -/
def Choice.armNames : List (Expr × Statement) → List Identifier
  | [] => []
  | (_, arm) :: rest => arm.bareNames ++ Choice.armNames rest

/-- Names in a query. -/
def Query.bareNames : Query → List Identifier
  | ⟨clauses⟩ => Clause.listNames clauses

/-- Names in several clauses. -/
def Clause.listNames : List Clause → List Identifier
  | [] => []
  | clause :: rest => clause.bareNames ++ Clause.listNames rest

/-- Names in several queries. -/
def Query.listNames : List Query → List Identifier
  | [] => []
  | query :: rest => query.bareNames ++ Query.listNames rest

/-- Names in a statement. -/
def Statement.bareNames : Statement → List Identifier
  | ⟨first, more, _⟩ => first.bareNames ++ Query.listNames more

end

mutual

/-- The names in the text of a clause are those in its syntax. -/
theorem Clause.voiced_pieces (keepsScope : Bool) : ∀ (c : Clause) (supply : NameSupply),
    Voiced c.bareNames (c.pieces keepsScope supply).1
  | .matching optional first more filter, _ => by
      have hword :
          (Piece.word (if optional then "OPTIONAL MATCH " else "MATCH ")).isFixed = true := by
        cases optional <;> decide
      have hpaths := Voiced.commaMap Path.voiced_pieces (first :: more)
      exact (hpaths.cons hword).append (voiced_filterPieces filter)
  | .passing projection filter, _ => by
      have hprojection : Voiced projection.bareNames (.word "WITH " :: projection.pieces) :=
        .cons (by decide) projection.voiced_pieces
      exact hprojection.append (voiced_filterPieces filter)
  | .unwind list element, _ => by
      have hlist : Voiced list.names (.word "UNWIND " :: list.pieces) :=
        .cons (by decide) list.voiced_pieces
      have helement : Voiced [element] [.word " AS ", .name element] :=
        .cons (by decide) (.name element .nil)
      exact hlist.append helement
  | .create path, _ => .cons (by decide) path.voiced_pieces
  | .setKey var key value, _ => by
      have hvalue : Voiced value.names
          (.word "." :: .quoted .backtick key :: .word " = " :: value.pieces) :=
        .cons (by decide) (.cons rfl (.cons (by decide) value.voiced_pieces))
      exact .cons (by decide) (.name var hvalue)
  | .delete detach subject, _ => by
      have hword :
          (Piece.word (if detach then "DETACH DELETE " else "DELETE ")).isFixed = true := by
        cases detach <;> decide
      exact .cons hword subject.voiced_pieces
  | .returning projection, _ => .cons (by decide) projection.voiced_pieces
  | .orderBy items, _ => .cons (by decide) (Voiced.commaMap SortKey.voiced_pieces items)
  | .skip count, _ => .cons (by decide) count.voiced_pieces
  | .limit count, _ => .cons (by decide) count.voiced_pieces
  | .subquery body, supply => by
      have hbody : Voiced body.bareNames (.openBody :: (body.pieces supply).1) :=
        .cons rfl (Statement.voiced_pieces body supply)
      exact hbody.concat rfl
  | .choice arms, supply => Choice.voiced_pieces keepsScope arms supply

theorem Choice.voiced_pieces (keepsScope : Bool) : ∀ (c : Choice) (supply : NameSupply),
    Voiced c.bareNames (c.pieces keepsScope supply).1
  | ⟨cases, fallback, columns⟩, supply => by
      have hguard := Choice.voiced_guardPieces keepsScope supply.next
      have hselector :=
        Choice.voiced_selectorPieces keepsScope supply.next (cases.map Prod.fst)
      have harms := Choice.voiced_casePieces hguard cases supply.advance 0
      have hlast := Statement.voiced_armPieces (hguard cases.length) fallback
        (Choice.casePieces (Choice.guardPieces keepsScope supply.next) supply.advance 0 cases).2
      have hopen : Voiced (Choice.armNames cases) (.lineBreak :: .openBody ::
          (Choice.casePieces (Choice.guardPieces keepsScope supply.next) supply.advance 0
            cases).1) :=
        .cons rfl (.cons rfl harms)
      have hreturn : Voiced columns (.closeBody :: .lineBreak :: Choice.returnPieces columns) :=
        .cons rfl (.cons rfl (Choice.voiced_returnPieces columns))
      exact ((hselector.append hopen).append hlast).append hreturn

theorem Choice.voiced_casePieces {guard : Nat → List Piece} (hguard : ∀ n, Voiced [] (guard n)) :
    ∀ (cases : List (Expr × Statement)) (supply : NameSupply) (number : Nat),
      Voiced (Choice.armNames cases) (Choice.casePieces guard supply number cases).1
  | [], _, _ => .nil
  | (_, arm) :: rest, supply, number => by
      have harm := Statement.voiced_armPieces (hguard number) arm supply
      have hrest := Choice.voiced_casePieces hguard rest
        (arm.armPieces (guard number) supply).2 (number + 1)
      exact (harm.behind UnionMode.all.voiced_pieces).append hrest

theorem Statement.voiced_armPieces {guard : List Piece} (hguard : Voiced [] guard) :
    ∀ (s : Statement) (supply : NameSupply), Voiced s.bareNames (s.armPieces guard supply).1
  | ⟨first, more, union⟩, supply => by
      have hfirst := Query.voiced_pieces first supply
      have hmore := Query.voiced_joinedPieces (union.voiced_pieces.append hguard) more
        (first.pieces supply).2
      exact (hguard.before hfirst).append hmore

theorem Query.voiced_pieces : ∀ (q : Query) (supply : NameSupply),
    Voiced q.bareNames (q.pieces supply).1
  | ⟨[]⟩, _ => .nil
  | ⟨first :: rest⟩, supply => by
      have hfirst := Clause.voiced_pieces false first supply
      exact hfirst.append (Clause.voiced_laterPieces rest (first.pieces false supply).2)

theorem Clause.voiced_laterPieces : ∀ (cs : List Clause) (supply : NameSupply),
    Voiced (Clause.listNames cs) (Clause.laterPieces supply cs).1
  | [], _ => .nil
  | clause :: rest, supply => by
      have hclause : Voiced clause.bareNames (.lineBreak :: (clause.pieces true supply).1) :=
        .cons rfl (Clause.voiced_pieces true clause supply)
      exact hclause.append (Clause.voiced_laterPieces rest (clause.pieces true supply).2)

theorem Query.voiced_joinedPieces {joint : List Piece} (hjoint : Voiced [] joint) :
    ∀ (qs : List Query) (supply : NameSupply),
      Voiced (Query.listNames qs) (Query.joinedPieces joint supply qs).1
  | [], _ => .nil
  | query :: rest, supply => by
      have hquery := Query.voiced_pieces query supply
      have hrest := Query.voiced_joinedPieces hjoint rest (query.pieces supply).2
      exact (hjoint.before hquery).append hrest

/-- The names in the text of a statement are those in its syntax, at every level. -/
theorem Statement.voiced_pieces : ∀ (s : Statement) (supply : NameSupply),
    Voiced s.bareNames (s.pieces supply).1
  | ⟨first, more, union⟩, supply => by
      have hfirst := Query.voiced_pieces first supply
      exact hfirst.append (Query.voiced_joinedPieces union.voiced_pieces more
        (first.pieces supply).2)

end

/-! ## Fragments -/

namespace Fragment

/-- Names that a fragment writes bare, in the order in which its text shows them. -/
def bareNames : Fragment → List Identifier
  | .expr e => e.names
  | .node n => n.bareNames
  | .relationship r => r.bareNames
  | .length _ => []
  | .path p => p.bareNames
  | .projection p => p.bareNames
  | .clause c => c.bareNames
  | .query q => q.bareNames
  | .statement s => s.bareNames

/-- Apart from its names, a fragment is written in words of the language. -/
theorem voiced_pieces (a : Fragment) (supply : NameSupply) :
    Voiced a.bareNames (a.pieces supply).1 := by
  cases a with
  | expr e => exact e.voiced_pieces
  | node n => exact n.voiced_pieces
  | relationship r => exact r.voiced_pieces
  | length l => exact voiced_lengthPieces (some l)
  | path p => exact p.voiced_pieces
  | projection p => exact p.voiced_pieces
  | clause c => exact c.voiced_pieces false supply
  | query q => exact q.voiced_pieces supply
  | statement s => exact s.voiced_pieces supply

end Fragment

end GraphQuery
