import GraphQuery.Proofs.Layout.Inline
import GraphQuery.Proofs.Reading.Pattern

/-!
# Paths are uniquely readable

A path is a node and steps, each of them a relationship and a node. Both are read from their
tokens whatever follows, so the steps are read one after the other until the tokens end. The
reader recovers every path from its text, up to the kinds of its placeholders, if no variable in
its properties is named like a word of the language. The variables of the pattern itself may have
any names. Two paths with the same text are therefore the same, in every direction, length, type
and label.

Main statements: `Path.parse?_text` and `Path.forgetKinds_eq_of_render_eq`.
-/

set_option autoImplicit false

namespace GraphQuery

open Text (Token)

namespace PatternReader

/-- Reads steps until the tokens end, but no more than the given number of them. -/
noncomputable def steps : Nat → PatternReader (List (RelationshipPattern × NodePattern))
  | 0 => return []
  | n + 1 => do
      if (← get).isEmpty then return []
      let relationship ← relationship
      let node ← node
      let more ← steps n
      return (relationship, node) :: more

/-- Reads a path of at most the given number of steps. -/
noncomputable def path (n : Nat) : PatternReader Path := do
  let start ← node
  let steps ← steps n
  return ⟨start, steps⟩

end PatternReader

namespace Path

/-- Variables in the properties of a step. -/
def stepNames (step : RelationshipPattern × NodePattern) : List Identifier :=
  Expr.entryNames step.1.properties ++ Expr.entryNames step.2.properties

/-- Variables in the properties of a path. -/
def names (p : Path) : List Identifier :=
  Expr.entryNames p.start.properties ++ p.steps.flatMap stepNames

/-- The path with all placeholders at the kind `any`. -/
def forgetKinds (p : Path) : Path := p.mapPlaceholders Placeholder.forgetKind

/-- Text of a path. A path has no line breaks, so its text is the same in both layouts. -/
def text (p : Path) : String := String.ofList (Piece.write .compact 0 p.pieces)

/-- Tokens of a step. -/
def stepTokens (step : RelationshipPattern × NodePattern) : List Token :=
  step.1.tokens ++ step.2.tokens

/-- Tokens of a path. -/
def tokens (p : Path) : List Token := p.start.tokens ++ p.steps.flatMap stepTokens

theorem flatMap_tokens_pieces (p : Path) : p.pieces.flatMap Piece.tokens = p.tokens := by
  rw [pieces, tokens, List.flatMap_append, List.flatMap_assoc]
  refine congrArg (p.start.tokens ++ ·) (List.flatMap_congr fun step _ => ?_)
  exact List.flatMap_append

/-- The text of a path is the same in both layouts, at every depth. -/
theorem write_pieces (p : Path) (layout : Layout) (depth : Nat) :
    String.ofList (Piece.write layout depth p.pieces) = p.text := by
  rw [text, Piece.write_of_inline p.inline_pieces]

/-! ## Steps -/

theorem stepTokens_ne_nil (step : RelationshipPattern × NodePattern) : stepTokens step ≠ [] :=
  List.append_ne_nil_of_left_ne_nil step.1.tokens_ne_nil _

/-- No step is without tokens. -/
theorem length_le_length_tokens (steps : List (RelationshipPattern × NodePattern)) :
    steps.length ≤ (steps.flatMap stepTokens).length := by
  induction steps with
  | nil => exact Nat.le_refl 0
  | cons step rest ih =>
      have hstep := List.length_pos_of_ne_nil (stepTokens_ne_nil step)
      rw [List.flatMap_cons, List.length_append, List.length_cons]
      omega

/-- Steps are read one after the other until the tokens end. -/
theorem steps_tokens {steps : List (RelationshipPattern × NodePattern)}
    (h : ∀ var ∈ steps.flatMap stepNames, var.text ∉ reservedWords) {n : Nat}
    (hn : steps.length ≤ n) :
    PatternReader.steps n (steps.flatMap stepTokens) =
      some (steps.map fun step => (step.1.forgetKinds, step.2.forgetKinds), []) := by
  induction steps generalizing n with
  | nil =>
      cases n with
      | zero | succ n => rfl
  | cons step rest ih =>
      cases n with
      | zero => cases hn
      | succ n =>
          obtain ⟨relationship, node⟩ := step
          obtain ⟨hstep, hrest⟩ := List.forall_mem_append.1 h
          obtain ⟨hrelationship, hnode⟩ := List.forall_mem_append.1 hstep
          have htokens : ((relationship, node) :: rest).flatMap stepTokens =
              relationship.tokens ++ (node.tokens ++ rest.flatMap stepTokens) :=
            List.append_assoc _ _ _
          have hmore : ¬ (((relationship, node) :: rest).flatMap stepTokens).isEmpty = true := by
            rw [htokens, List.isEmpty_iff]
            exact List.append_ne_nil_of_left_ne_nil relationship.tokens_ne_nil _
          -- the parenthesis of the node cannot be taken for the tip of the arrow
          have hclear : PatternReader.Clear ['>'] (node.tokens ++ rest.flatMap stepTokens) :=
            List.not_mem_cons_of_ne_of_not_mem (by decide) List.not_mem_nil
          rw [PatternReader.steps]
          refine (PatternReader.bind_eq rfl _).trans ?_
          rw [if_neg hmore, htokens]
          refine (PatternReader.bind_eq
            (PatternReader.relationship_tokens hrelationship hclear) _).trans ?_
          refine (PatternReader.bind_eq (PatternReader.node_tokens hnode) _).trans ?_
          exact PatternReader.bind_eq (ih hrest (Nat.le_of_succ_le_succ hn)) _

/-- The path with the given text, as far as the reader finds one. -/
noncomputable def parse? (text : String) : Option Path := do
  let ts ← Text.tokens? text
  let (path, rest) ← PatternReader.path ts.length ts
  if rest.isEmpty then some path else none

/-- A path is recovered from its text, up to the kinds of its placeholders. -/
theorem parse?_text {p : Path} (h : ∀ var ∈ p.names, var.text ∉ reservedWords) :
    parse? p.text = some p.forgetKinds := by
  obtain ⟨hstart, hsteps⟩ := List.forall_mem_append.1 h
  have hlength : p.steps.length ≤ p.tokens.length :=
    Nat.le_trans (length_le_length_tokens p.steps) (by rw [tokens, List.length_append]; omega)
  have hpath : PatternReader.path p.tokens.length p.tokens = some (p.forgetKinds, []) := by
    refine (PatternReader.bind_eq (PatternReader.node_tokens hstart) _).trans ?_
    exact PatternReader.bind_eq (steps_tokens hsteps hlength) _
  have htokens : Text.tokens? p.text = some p.tokens := by
    rw [text, Piece.tokens?_write p.wellSpaced_pieces, flatMap_tokens_pieces]
  show (Text.tokens? p.text).bind (fun ts => (PatternReader.path ts.length ts).bind _) = _
  rw [htokens, Option.bind_some, hpath]
  rfl

/-- Paths that are rendered to the same text are the same, up to the kinds of the placeholders in
their properties, whatever the layouts and the supplies of names. -/
theorem forgetKinds_eq_of_render_eq {p q : Path}
    (hp : ∀ var ∈ p.names, var.text ∉ reservedWords)
    (hq : ∀ var ∈ q.names, var.text ∉ reservedWords) {layout layout' : Layout}
    {supply supply' : NameSupply}
    (htext : ((Fragment.path p).render layout supply).1.text =
      ((Fragment.path q).render layout' supply').1.text) : p.forgetKinds = q.forgetKinds := by
  have hsame : p.text = q.text :=
    ((p.write_pieces layout 0).symm.trans htext).trans (q.write_pieces layout' 0)
  have hparse := parse?_text hp
  rw [hsame, parse?_text hq] at hparse
  exact (Option.some.inj hparse).symm

-- a variable in a property may be taken for a literal if it is named like one
example : (Path.mk ⟨none, [], [("key", .name ⟨"null", by decide⟩)]⟩ []).text =
    (Path.mk ⟨none, [], [("key", .literal .null)]⟩ []).text := rfl

namespace Sample

def case : Identifier := ⟨"CASE", by decide⟩

def friend : Identifier := ⟨"friend", by decide⟩

def id : Identifier := ⟨"id", by decide⟩

/-- A labelled node with a variable named like a word of the language, at least two
relationships of two types that point back to it, and a bare arrow. -/
def friends (kind : Kind) : Path :=
  ⟨⟨some case, ["Person"], [("id", .placeholder ⟨id, kind⟩)]⟩,
    [(⟨.left, none, ["KNOWS", "LIKES"], some (.atLeast 2), [("since", .literal (.int 2020))]⟩,
        ⟨none, [], []⟩),
      (⟨.right, none, [], none, []⟩, ⟨some friend, [], [("friend", .name friend)]⟩)]⟩

end Sample

/-- Two paths that differ in the kind of a placeholder have the same text, so they are equal but
for that kind. -/
theorem forgetKinds_friends :
    (∀ var ∈ (Sample.friends .integer).names, var.text ∉ reservedWords) ∧
    (∀ var ∈ (Sample.friends .string).names, var.text ∉ reservedWords) ∧
    ((Fragment.path (Sample.friends .integer)).render .compact .fresh).1.text =
      ((Fragment.path (Sample.friends .string)).render .pretty .fresh).1.text ∧
    (Sample.friends .integer).forgetKinds = (Sample.friends .string).forgetKinds := by
  have htext : ((Fragment.path (Sample.friends .integer)).render .compact .fresh).1.text =
      ((Fragment.path (Sample.friends .string)).render .pretty .fresh).1.text := rfl
  exact ⟨by decide, by decide, htext, forgetKinds_eq_of_render_eq (by decide) (by decide) htext⟩

end Path

end GraphQuery
