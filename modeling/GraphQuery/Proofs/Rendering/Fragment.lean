import GraphQuery.Fragment
import GraphQuery.Proofs.Rendering.Statement
import Mathlib.Data.List.Induction

/-!
# Placeholders of rendered fragments

A fragment has its placeholders three times: in the syntax, in the record that
rendering keeps, and in the text. Main statement: `Fragment.placeholders_render`, the
three agree in both layouts and for every supply of names. The text is read without
knowledge of the fragment, by `Text.parameters?`.
-/

set_option autoImplicit false

namespace GraphQuery

/-- A new element is kept at the end of a list without repetitions. -/
theorem eraseDups_concat {α : Type} [DecidableEq α] (as : List α) (a : α) :
    (as ++ [a]).eraseDups = if a ∈ as then as.eraseDups else as.eraseDups ++ [a] := by
  rw [List.eraseDups_append]
  split
  · next h => simp [List.removeAll, h]
  · next h => simp [List.removeAll, h, List.eraseDups_cons]

theorem nodup_eraseDups {α : Type} [DecidableEq α] (as : List α) : as.eraseDups.Nodup := by
  induction as using List.reverseRecOn with
  | nil => exact List.nodup_nil
  | append_singleton as a ih =>
      rw [eraseDups_concat]
      split
      · exact ih
      · next h =>
          refine List.nodup_append.2 ⟨ih, List.pairwise_singleton _ a, fun b hb c hc heq => h ?_⟩
          rw [← List.mem_singleton.1 hc, ← heq]
          exact List.mem_eraseDups.1 hb

/-- Repetitions may be dropped before a function is applied or only after it. -/
theorem eraseDups_map_eraseDups {α β : Type} [DecidableEq α] [DecidableEq β] (f : α → β)
    (as : List α) : (as.eraseDups.map f).eraseDups = (as.map f).eraseDups := by
  -- the first occurrence counts, so the last element is the one that may be dropped
  induction as using List.reverseRecOn with
  | nil => rfl
  | append_singleton as a ih =>
      rw [eraseDups_concat, List.map_append, List.map_singleton, eraseDups_concat]
      by_cases ha : a ∈ as
      · rw [if_pos ha, if_pos (List.mem_map_of_mem ha), ih]
      · have hmem : f a ∈ as.eraseDups.map f ↔ f a ∈ as.map f := by
          simp only [List.mem_map, List.mem_eraseDups]
        rw [if_neg ha, List.map_append, List.map_singleton, eraseDups_concat, ih]
        simp only [hmem]

namespace Fragment

/-- The pieces of a fragment are well spaced. -/
theorem wellSpaced_pieces (f : Fragment) (supply : NameSupply) :
    Piece.WellSpaced (f.pieces supply).1 := by
  cases f with
  | expr e => exact e.wellSpaced_pieces
  | node n => exact n.wellSpaced_pieces
  | relationship r => exact r.wellSpaced_pieces
  | length l => exact l.wellSpaced_pieces
  | path p => exact p.wellSpaced_pieces
  | projection p => exact p.wellSpaced_pieces
  | clause c => exact c.wellSpaced_pieces false supply
  | query q => exact q.wellSpaced_pieces supply
  | statement s => exact s.wellSpaced_pieces supply

/-- The text of a fragment shows its placeholders, in the order of the syntax. -/
theorem placeholders_pieces (f : Fragment) (supply : NameSupply) :
    Piece.placeholders (f.pieces supply).1 = f.placeholders := by
  cases f with
  | expr e => exact e.placeholders_pieces
  | node n => exact n.placeholders_pieces
  | relationship r => exact r.placeholders_pieces
  | length l => rfl
  | path p => exact p.placeholders_pieces
  | projection p => exact p.placeholders_pieces
  | clause c => exact c.placeholders_pieces false supply
  | query q => exact q.placeholders_pieces supply
  | statement s => exact s.placeholders_pieces supply

/-- The record of a rendered fragment holds its placeholders without repetitions, the
two lists of names agree, and the dollar signs of the text that stand outside quotes
name the placeholders in order and with repetitions. -/
theorem placeholders_render (f : Fragment) (layout : Layout) (supply : NameSupply) :
    (f.render layout supply).1.uses = f.placeholders.eraseDups ∧
    (f.render layout supply).1.names = placeholderNames f.placeholders ∧
    (f.render layout supply).1.names = (f.placeholders.map Placeholder.name).eraseDups ∧
    Text.parameters? (f.render layout supply).1.text =
      some (f.placeholders.map fun p => p.name.text) := by
  have hplaceholders := f.placeholders_pieces supply
  have huses : (f.render layout supply).1.uses = f.placeholders.eraseDups :=
    congrArg List.eraseDups hplaceholders
  have hnames : (f.render layout supply).1.names =
      (f.placeholders.map Placeholder.name).eraseDups := by
    rw [Rendered.names, huses, eraseDups_map_eraseDups]
  have htext := Piece.parameters?_write (f.wellSpaced_pieces supply) layout
  rw [hplaceholders] at htext
  exact ⟨huses, hnames, hnames, htext⟩

end Fragment

end GraphQuery
