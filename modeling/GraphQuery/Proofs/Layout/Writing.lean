import GraphQuery.Proofs.Building.WellFormed
import GraphQuery.Proofs.Layout.Filled

/-!
# Writing step by step

A writer leaves out spaces that would begin a line and writes the indentation of a line with
its first text, so what it does with a piece depends on what stands before. If there is text on
every line, each piece adds what it is written as at its depth.

Main statements: `Writer.begun_put` for one piece, `Writer.begun_putAll` for several, and
`Fragment.Sound.text_emit`.
-/

set_option autoImplicit false

namespace GraphQuery

open Piece (Filled)

/-- An identifier has a first character. -/
theorem Identifier.toList_ne_nil (id : Identifier) : id.text.toList ≠ [] := by
  intro hnil
  have hlegal := id.legal
  rw [hnil] at hlegal
  cases hlegal

namespace Writer

variable (layout : Layout) {w : Writer}

/-- The text that is written, up to where the next text on the line goes. -/
def begun (w : Writer) : List Char := w.text ++ w.indentation layout

/-- There is text on the current line. -/
structure OnLine (w : Writer) : Prop where
  text_ne : w.text ≠ []
  not_atLineStart : w.atLineStart = false

/-- On a line that has begun nothing comes before the next text. -/
theorem begun_eq_text (h : w.atLineStart = false) : w.begun layout = w.text := by
  cases layout with
  | compact => exact List.append_nil w.text
  | pretty => rw [begun, indentation, h, if_neg Bool.false_ne_true, List.append_nil]

/-! ## Depths -/

/-- Ending a line opens and closes no body. -/
@[simp]
theorem depth_newline (w : Writer) : (w.newline layout).depth = w.depth := by
  cases layout with
  | compact =>
      show w.space.depth = w.depth
      unfold space
      split <;> rfl
  | pretty => rfl

/-- The depth of a writer is that behind its pieces. -/
theorem depth_put (w : Writer) (p : Piece) :
    (w.put layout p).depth = p.depthAfter w.depth := by
  cases p with
  | gap => exact depth_newline .compact w
  | lineBreak => exact depth_newline layout w
  | openBody => exact depth_newline layout _
  | closeBody => exact depth_newline layout w.dedent
  | word _ | name _ | selector _ | quoted _ _ | placeholder _ => rfl

/-- The depth of a writer behind several pieces does not depend on the layout. -/
theorem depth_putAll (w : Writer) (ps : List Piece) :
    (w.putAll layout ps).depth = Piece.depthBehind w.depth ps := by
  induction ps generalizing w with
  | nil => rfl
  | cons p rest ih =>
      have hrest := ih (w.put layout p)
      rw [depth_put] at hrest
      exact hrest

/-! ## Texts -/

/-- Whatever stands before, text is written at the end. -/
theorem begun_write (w : Writer) (chars : List Char) :
    (w.write layout chars).begun layout = w.begun layout ++ chars :=
  begun_eq_text layout rfl

/-- There is text on the line once some has been written, or if there was some before. -/
theorem onLine_write {chars : List Char} (h : chars ≠ [] ∨ w.OnLine) :
    (w.write layout chars).OnLine := by
  refine ⟨fun hnil => ?_, rfl⟩
  obtain ⟨hbegun, hchars⟩ := List.append_eq_nil_iff.1 hnil
  rcases h with hne | hline
  · exact hne hchars
  · exact hline.text_ne (List.append_eq_nil_iff.1 hbegun).1

theorem OnLine.space_eq (h : w.OnLine) : w.space = ⟨w.text ++ [' '], w.depth, false⟩ := by
  have htext : w.text.isEmpty = false := List.isEmpty_eq_false_iff.2 h.text_ne
  rw [space, htext, h.not_atLineStart]
  rfl

/-- Behind text a space is written, and there is still text on the line. -/
theorem OnLine.space (h : w.OnLine) :
    w.space.begun layout = w.begun layout ++ [' '] ∧ w.space.OnLine := by
  rw [h.space_eq, begun_eq_text layout rfl, begun_eq_text layout h.not_atLineStart]
  exact ⟨rfl, List.append_ne_nil_of_right_ne_nil _ (List.cons_ne_nil _ _), rfl⟩

/-- Behind text a line ends as a break does, with the indentation that the next text brings. -/
theorem OnLine.begun_newline (h : w.OnLine) :
    (w.newline layout).begun layout = w.begun layout ++ layout.lineBreak w.depth := by
  cases layout with
  | compact => exact (h.space .compact).1
  | pretty =>
      rw [begun_eq_text .pretty h.not_atLineStart]
      exact List.append_assoc w.text ['\n'] _

/-- A piece that can stand where the writer is adds what it is written as. -/
theorem begun_put {p : Piece} (h : p.beginsLine = true ∨ w.OnLine) :
    (w.put layout p).begun layout = w.begun layout ++ Piece.write layout w.depth [p] ∧
      (p.endsLine = false → (w.put layout p).OnLine) := by
  have hwritten : ∀ {chars : List Char}, chars ≠ [] ∨ w.OnLine →
      (w.write layout chars).begun layout = w.begun layout ++ (chars ++ []) ∧
        (w.write layout chars).OnLine := by
    intro chars hchars
    rw [begun_write, List.append_nil]
    exact ⟨rfl, onLine_write layout hchars⟩
  cases p with
  | word text =>
      have hchars : text.toList ≠ [] ∨ w.OnLine := h.imp_left fun hbegins hnil =>
        bne_iff_ne.1 hbegins (String.toList_eq_nil_iff.1 hnil)
      exact (hwritten hchars).imp_right fun hline _ => hline
  | name id => exact (hwritten (.inl id.toList_ne_nil)).imp_right fun hline _ => hline
  | selector id => exact (hwritten (.inl id.toList_ne_nil)).imp_right fun hline _ => hline
  | quoted quote content =>
      exact (hwritten (.inl (List.cons_ne_nil _ _))).imp_right fun hline _ => hline
  | placeholder r =>
      refine ⟨?_, fun _ => onLine_write layout (.inl r.name.toList_ne_nil)⟩
      show ((w.write layout ['$']).write layout r.name.text.toList).begun layout =
        w.begun layout ++ ('$' :: r.name.text.toList ++ [])
      rw [begun_write, begun_write, List.append_nil, List.append_assoc]
      rfl
  | gap =>
      have hspace := (h.resolve_left Bool.false_ne_true).space layout
      exact ⟨hspace.1, fun _ => hspace.2⟩
  | lineBreak =>
      have hnewline := (h.resolve_left Bool.false_ne_true).begun_newline layout
      refine ⟨?_, fun hends => by cases hends⟩
      show _ = w.begun layout ++ (layout.lineBreak w.depth ++ [])
      rw [List.append_nil]
      exact hnewline
  | openBody =>
      have hline : (w.write layout "CALL \x7b".toList).indent.OnLine :=
        ⟨(onLine_write layout (.inl (by decide))).text_ne, rfl⟩
      refine ⟨(hline.begun_newline layout).trans ?_, fun hends => by cases hends⟩
      show _ = w.begun layout ++ ("CALL \x7b".toList ++ layout.lineBreak (w.depth + 1) ++ [])
      rw [begun_eq_text layout rfl, List.append_nil, ← List.append_assoc]
      rfl
  | closeBody =>
      have hline := h.resolve_left Bool.false_ne_true
      have hdedent : w.dedent.OnLine := ⟨hline.text_ne, hline.not_atLineStart⟩
      refine ⟨?_, fun _ => onLine_write layout (.inl (List.cons_ne_nil _ _))⟩
      show ((w.dedent.newline layout).write layout ['\x7d']).begun layout = _
      rw [begun_write, hdedent.begun_newline layout, begun_eq_text layout hdedent.not_atLineStart,
        begun_eq_text layout hline.not_atLineStart, List.append_assoc]
      rfl

/-- Pieces with text on every line add what they are written as. -/
theorem begun_putAll {fresh : Bool} {ps : List Piece} (h : Filled fresh ps)
    (hline : fresh = false → w.OnLine) :
    (w.putAll layout ps).begun layout = w.begun layout ++ Piece.write layout w.depth ps ∧
      (w.putAll layout ps).OnLine := by
  induction ps generalizing fresh w with
  | nil => exact ⟨(List.append_nil _).symm, hline h⟩
  | cons p rest ih =>
      have hhere : p.beginsLine = true ∨ w.OnLine := by
        cases fresh with
        | false => exact .inr (hline rfl)
        | true => exact .inl (h.1 rfl)
      obtain ⟨hput, hafter⟩ := begun_put layout hhere
      obtain ⟨hrest, hlast⟩ := ih h.2 hafter
      refine ⟨?_, hlast⟩
      show ((w.put layout p).putAll layout rest).begun layout = _
      rw [hrest, hput, depth_put, List.append_assoc]
      exact congrArg _ (Piece.write_append layout w.depth [p] rest).symm

end Writer

namespace Fragment

/-- Writing step by step closes all bodies that it opens. -/
theorem depth_emit (f : Fragment) (layout : Layout) (supply : NameSupply) :
    (f.emit layout supply).depth = 0 :=
  (Writer.depth_putAll layout .empty _).trans (f.balanced_pieces supply).settled

/-- What is in order has no empty query, but for a query that has not been begun. -/
theorem Sound.occupied {f : Fragment} (h : f.Sound) (hne : f ≠ .query ⟨[]⟩) : f.Occupied := by
  cases f with
  | clause c => exact fun t ht q hq => ((h.wellFormed t ht).inOrder q hq).clauses_ne
  | query q =>
      obtain ⟨clauses⟩ := q
      refine ⟨fun hnil => hne (congrArg (fun cs => query ⟨cs⟩) hnil), fun t ht p hp => ?_⟩
      obtain ⟨c, hc, ht⟩ := Query.mem_nested_iff.1 ht
      exact (((h c hc).wellFormed t ht).inOrder p hp).clauses_ne
  | statement s => exact fun t ht q hq => ((h t ht).inOrder q hq).clauses_ne
  | expr _ | node _ | relationship _ | length _ | path _ | projection _ => exact trivial

/-- A fragment that is in order has the same text if it is written step by step. -/
theorem Sound.text_emit {f : Fragment} (h : f.Sound) (layout : Layout) (supply : NameSupply) :
    String.ofList (f.emit layout supply).text = (f.render layout supply).1.text := by
  by_cases hempty : f = .query ⟨[]⟩
  · rw [hempty]
    rfl
  · have hfilled := filled_pieces (h.occupied hempty) supply
    obtain ⟨hbegun, hline⟩ := Writer.begun_putAll (w := .empty) layout hfilled
      (fun hfalse => by cases hfalse)
    have hnone : Writer.empty.begun layout = [] := by cases layout <;> rfl
    rw [Writer.begun_eq_text layout hline.not_atLineStart, hnone, List.nil_append] at hbegun
    exact congrArg String.ofList hbegun

end Fragment

end GraphQuery
