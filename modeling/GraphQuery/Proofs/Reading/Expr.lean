import GraphQuery.Fragment
import GraphQuery.Proofs.Reading.Lists
import GraphQuery.Proofs.Rendering.Expr

/-!
# Expressions are uniquely readable

The reader recovers every expression from its text, up to the kinds of its
placeholders, if no variable in it is named like a word of the language. Two
expressions with the same text are therefore the same tree.

Main statements: `parse?_text` and `forgetKinds_eq_of_text_eq`.
-/

set_option autoImplicit false

namespace GraphQuery

open Reader (read)

namespace Expr

mutual

/-- Every expression is read if no variable of it is named like a word of the
language. -/
theorem reads : ∀ e : Expr, (∀ var ∈ e.names, var.text ∉ reservedWords) → Reads e
  | .literal value, _ => reads_literal value
  | .name var, h => reads_name (h var List.mem_cons_self)
  | .placeholder p, _ => reads_placeholder p
  | .call function first rest, h => by
      obtain ⟨hfirst, hrest⟩ := List.forall_mem_append.1 h
      exact reads_call function (reads first hfirst) (reads_of_mem_list rest hrest)
  | .map entries, h => reads_map (reads_of_mem_entries entries h)
  | .list items, h => reads_list (reads_of_mem_list items h)
  | .property subject key, h => reads_property (reads subject h) key
  | .index subject position, h => by
      obtain ⟨hsubject, hposition⟩ := List.forall_mem_append.1 h
      exact reads_index (reads subject hsubject) (reads position hposition)
  | .sliceFrom subject low, h => by
      obtain ⟨hsubject, hlow⟩ := List.forall_mem_append.1 h
      exact reads_sliceFrom (reads subject hsubject) (reads low hlow)
  | .sliceTo subject high, h => by
      obtain ⟨hsubject, hhigh⟩ := List.forall_mem_append.1 h
      exact reads_sliceTo (reads subject hsubject) (reads high hhigh)
  | .slice subject low high, h => by
      obtain ⟨hsubject, hbounds⟩ := List.forall_mem_append.1 h
      obtain ⟨hlow, hhigh⟩ := List.forall_mem_append.1 hbounds
      exact reads_slice (reads subject hsubject) (reads low hlow) (reads high hhigh)
  | .unary op operand, h => reads_unary op (reads operand h)
  | .binary op left right, h => by
      obtain ⟨hleft, hright⟩ := List.forall_mem_append.1 h
      exact reads_binary op (reads left hleft) (reads right hright)
  | .case condition result more fallback, h => by
      obtain ⟨hcondition, htail⟩ := List.forall_mem_append.1 h
      obtain ⟨hresult, htail⟩ := List.forall_mem_append.1 htail
      obtain ⟨hmore, hfallback⟩ := List.forall_mem_append.1 htail
      exact reads_case (reads condition hcondition) (reads result hresult)
        (reads_of_mem_arms more hmore) (reads_of_mem_fallback fallback hfallback)

/-- All of several expressions are read back if no variable in them is a word of the language. -/
theorem reads_of_mem_list : ∀ es : List Expr, (∀ var ∈ listNames es, var.text ∉ reservedWords) →
    ∀ e ∈ es, Reads e
  | [], _ => List.forall_mem_nil Reads
  | e :: rest, h => by
      obtain ⟨he, hrest⟩ := List.forall_mem_append.1 h
      exact List.forall_mem_cons.2 ⟨reads e he, reads_of_mem_list rest hrest⟩

theorem reads_of_mem_entries : ∀ es : List (String × Expr),
    (∀ var ∈ entryNames es, var.text ∉ reservedWords) → ∀ entry ∈ es, Reads entry.2
  | [], _ => List.forall_mem_nil _
  | (key, e) :: rest, h => by
      obtain ⟨he, hrest⟩ := List.forall_mem_append.1 h
      exact List.forall_mem_cons.2 ⟨reads e he, reads_of_mem_entries rest hrest⟩

/-- Conditions and results of arms are read back on the same condition. -/
theorem reads_of_mem_arms : ∀ arms : List (Expr × Expr),
    (∀ var ∈ armNames arms, var.text ∉ reservedWords) → ∀ arm ∈ arms, Reads arm.1 ∧ Reads arm.2
  | [], _ => List.forall_mem_nil _
  | (condition, result) :: rest, h => by
      obtain ⟨hcondition, htail⟩ := List.forall_mem_append.1 h
      obtain ⟨hresult, hrest⟩ := List.forall_mem_append.1 htail
      exact List.forall_mem_cons.2
        ⟨⟨reads condition hcondition, reads result hresult⟩, reads_of_mem_arms rest hrest⟩

theorem reads_of_mem_fallback : ∀ fallback : Option Expr,
    (∀ var ∈ fallbackNames fallback, var.text ∉ reservedWords) → ∀ e ∈ fallback, Reads e
  | none, _ => fun _ he => nomatch he
  | some e, h => fun _ he => Option.some.inj he ▸ reads e h

end

/-- The expression with the given text, as far as the reader finds one. -/
noncomputable def parse? (text : String) : Option Expr :=
  (Text.tokens? text).bind (read ⟨[], .expecting⟩)

/-- An expression is recovered from its text, up to the kinds of its placeholders. -/
theorem parse?_text {e : Expr} (h : ∀ var ∈ e.names, var.text ∉ reservedWords) :
    parse? e.text = some e.forgetKinds := by
  -- the whole text is the expression, with nothing open around it
  have hread := reads e h [] [] trivial
  rw [List.append_nil, Reader.read_nil] at hread
  rw [parse?, text, Piece.tokens?_write (wellSpaced_pieces e), Option.bind_some]
  exact hread

/-- Expressions that are rendered to the same text are the same tree, up to the kinds
of their placeholders, whatever the layouts and the supplies of names. -/
theorem forgetKinds_eq_of_text_eq {a b : Expr}
    (ha : ∀ var ∈ a.names, var.text ∉ reservedWords)
    (hb : ∀ var ∈ b.names, var.text ∉ reservedWords) {layout layout' : Layout}
    {supply supply' : NameSupply}
    (htext : ((Fragment.expr a).render layout supply).1.text =
      ((Fragment.expr b).render layout' supply').1.text) : a.forgetKinds = b.forgetKinds := by
  have hsame : a.text = b.text :=
    ((a.write_pieces layout 0).symm.trans htext).trans (b.write_pieces layout' 0)
  have hparse := parse?_text ha
  rw [hsame, parse?_text hb] at hparse
  exact (Option.some.inj hparse).symm

-- the text of a variable named like a literal is the text of the literal
example : (name ⟨"null", by decide⟩).text = (literal .null).text := rfl

namespace Sample

def items : Identifier := ⟨"items", by decide⟩

/-- `CASE WHEN NOT (items.size <= $items) THEN items[$items..-2] ELSE ... END`, with a
map whose key is `END` behind `ELSE`. -/
def bounded (kind : Kind) : Expr :=
  .case
    (.unary .not (.binary .lessEq (.property (.name items) "size") (.placeholder ⟨items, kind⟩)))
    (.slice (.name items) (.placeholder ⟨items, kind⟩) (.literal (.int (-2)))) []
    (some (.map [("END", .list [.literal (.bool true)])]))

end Sample

/-- Two expressions that differ in the kinds of their placeholders only. -/
theorem forgetKinds_bounded :
    (∀ var ∈ (Sample.bounded .integer).names, var.text ∉ reservedWords) ∧
    (∀ var ∈ (Sample.bounded .float).names, var.text ∉ reservedWords) ∧
    ((Fragment.expr (Sample.bounded .integer)).render .compact .fresh).1.text =
      ((Fragment.expr (Sample.bounded .float)).render .compact .fresh).1.text ∧
    (Sample.bounded .integer).forgetKinds = (Sample.bounded .float).forgetKinds := by
  have htext : ((Fragment.expr (Sample.bounded .integer)).render .compact .fresh).1.text =
      ((Fragment.expr (Sample.bounded .float)).render .compact .fresh).1.text := rfl
  exact ⟨by decide, by decide, htext, forgetKinds_eq_of_text_eq (by decide) (by decide) htext⟩

end Expr

end GraphQuery
