import GraphQuery.Proofs.Layout.Writing
import GraphQuery.Proofs.Quoting.Spans

/-!
# Lines of a text

Breaks and the ends of subquery bodies divide pieces into lines. Both layouts write the same
lines: the compact layout puts a space between any two of them, the pretty layout begins a
new line of text and indents it by the number of bodies that are open.

Main statement: `Fragment.lines_render`.
-/

set_option autoImplicit false

namespace GraphQuery

namespace Piece

/-- The text that a piece adds to its line. -/
def ownText : Piece → String
  | .lineBreak => ""
  | .openBody => "CALL \x7b"
  | .closeBody => "\x7d"
  | p => p.lineText

/-- The text of a line. -/
def ownLine (ps : List Piece) : String := String.join (ps.map ownText)

theorem ownLine_nil : ownLine [] = "" := rfl

theorem ownLine_cons (p : Piece) (rest : List Piece) :
    ownLine (p :: rest) = p.ownText ++ ownLine rest :=
  String.join_cons

/-- The first line and the lines after it. A body that opens ends its line, and a body that
closes begins a new one. -/
def lines : List Piece → List Piece × List (List Piece)
  | [] => ([], [])
  | .lineBreak :: rest => ([], (lines rest).1 :: (lines rest).2)
  | .openBody :: rest => ([.openBody], (lines rest).1 :: (lines rest).2)
  | .closeBody :: rest => ([], (.closeBody :: (lines rest).1) :: (lines rest).2)
  | p :: rest => (p :: (lines rest).1, (lines rest).2)

/-- Number of bodies that are open where `line` begins. A body that `line` closes is no
longer open. -/
def openBodies (before line : List Piece) : Nat :=
  before.count .openBody - (before ++ line).count .closeBody

/-- A line end, and four spaces for every body that is open. -/
def newLine (depth : Nat) : String := "\n" ++ String.ofList (List.replicate (4 * depth) ' ')

/-- Lines behind other pieces, each indented by the bodies that are open where it begins. -/
def indented (before : List Piece) : List (List Piece) → String
  | [] => ""
  | line :: rest =>
      newLine (openBodies before line) ++ ownLine line ++ indented (before ++ line) rest

/-- A piece that stays on its line is added to the first line. -/
theorem lines_cons_of_inline {p : Piece} (h : p.isInline = true) (rest : List Piece) :
    lines (p :: rest) = (p :: (lines rest).1, (lines rest).2) := by
  cases p with
  | lineBreak | openBody | closeBody => cases h
  | word _ | name _ | selector _ | quoted _ _ | placeholder _ | gap => rfl

/-- Lines hold all pieces but the breaks, in order. -/
theorem flatten_lines (ps : List Piece) :
    ((lines ps).1 :: (lines ps).2).flatten = ps.filter (· != .lineBreak) := by
  induction ps with
  | nil => rfl
  | cons p rest ih =>
      cases p with
      | lineBreak => exact ih
      | openBody => exact congrArg (Piece.openBody :: ·) ih
      | closeBody => exact congrArg (Piece.closeBody :: ·) ih
      | word _ | name _ | selector _ | quoted _ _ | placeholder _ | gap =>
          exact congrArg (_ :: ·) ih

/-- The first line closes no body. -/
theorem count_closeBody_lines (ps : List Piece) : (lines ps).1.count .closeBody = 0 := by
  induction ps with
  | nil => rfl
  | cons p rest ih =>
      cases p with
      | lineBreak | openBody | closeBody => rfl
      | word _ | name _ | selector _ | quoted _ _ | placeholder _ | gap =>
          exact (List.count_cons_of_ne (by simp)).trans ih

/-! ## The compact layout -/

/-- On one line of text, the lines stand behind each other with spaces between them. -/
theorem line_eq_intercalate (ps : List Piece) :
    line ps = " ".intercalate (((lines ps).1 :: (lines ps).2).map ownLine) := by
  induction ps with
  | nil => rfl
  | cons p rest ih =>
      rw [line_cons, ih]
      cases p with
      | lineBreak => simp [lines, ownLine_nil, String.intercalate_cons_cons]
      | openBody => simp [lines, ownLine_nil, ownLine_cons, ownText, String.intercalate_cons_cons]
      | closeBody =>
          simp only [lines, List.map_cons, ownLine_nil, ownLine_cons, String.intercalate_cons_cons,
            String.intercalate_cons_append, String.empty_append, ← String.append_assoc]
          rfl
      | word _ | name _ | selector _ | quoted _ _ | placeholder _ | gap =>
          simp [lines, ownLine_cons, ownText, String.append_assoc]

/-! ## The pretty layout -/

/-- A break of the pretty layout is a new line with its indentation. -/
theorem ofList_lineBreak (depth : Nat) :
    String.ofList (Layout.lineBreak .pretty depth) = newLine depth := by
  show String.ofList (['\n'] ++ List.replicate (4 * depth) ' ') = _
  rw [String.ofList_append]
  rfl

/-- Behind a break the pretty layout goes on in a new line. -/
theorem ofList_write_lineBreak (depth : Nat) (rest : List Piece) :
    String.ofList (write .pretty depth (.lineBreak :: rest)) =
      newLine depth ++ String.ofList (write .pretty depth rest) := by
  show String.ofList (Layout.lineBreak .pretty depth ++ write .pretty depth rest) = _
  rw [String.ofList_append, ofList_lineBreak]

/-- Behind the opening of a body the pretty layout goes on in a new line, one step deeper. -/
theorem ofList_write_openBody (depth : Nat) (rest : List Piece) :
    String.ofList (write .pretty depth (.openBody :: rest)) =
      "CALL \x7b" ++ newLine (depth + 1) ++ String.ofList (write .pretty (depth + 1) rest) := by
  have hwrite : write .pretty depth (.openBody :: rest) = "CALL \x7b".toList ++
      Layout.lineBreak .pretty (depth + 1) ++ write .pretty (depth + 1) rest := rfl
  rw [hwrite, String.ofList_append, String.ofList_append, ofList_lineBreak, String.ofList_toList]

/-- The pretty layout closes a body in a new line, one step less deep. -/
theorem ofList_write_closeBody (depth : Nat) (rest : List Piece) :
    String.ofList (write .pretty depth (.closeBody :: rest)) =
      newLine (depth - 1) ++ ("\x7d" ++ String.ofList (write .pretty (depth - 1) rest)) := by
  show String.ofList (Layout.lineBreak .pretty (depth - 1) ++
    (['\x7d'] ++ write .pretty (depth - 1) rest)) = _
  rw [String.ofList_append, String.ofList_append, ofList_lineBreak]

/-- A piece inside a line is written alike everywhere. -/
theorem ofList_write_inline {p : Piece} (h : p.isInline = true) (layout : Layout) (depth : Nat)
    (rest : List Piece) : String.ofList (write layout depth (p :: rest)) =
      p.ownText ++ String.ofList (write layout depth rest) := by
  cases p with
  | lineBreak | openBody | closeBody => cases h
  | placeholder r =>
      show String.ofList (['$'] ++ r.name.text.toList ++ write layout depth rest) = _
      rw [String.ofList_append, String.ofList_append, String.ofList_toList]
      rfl
  | quoted quote content => exact String.ofList_append
  | gap =>
      show String.ofList ([' '] ++ write layout depth rest) = _
      rw [String.ofList_append]
      rfl
  | word _ | name _ | selector _ =>
      show String.ofList (_ ++ write layout depth rest) = _
      rw [String.ofList_append, String.ofList_toList]
      rfl

/-- The bodies open at the beginning of a line are those open before it, less those that it
closes. -/
theorem openBodies_eq {before line : List Piece} {depth closed : Nat}
    (hbefore : before.count .openBody = depth + before.count .closeBody)
    (hline : line.count .closeBody = closed) : openBodies before line = depth - closed := by
  rw [openBodies, List.count_append, hbefore, hline]
  omega

/-- Behind the pieces `before`, which leave `depth` bodies open, the pretty layout writes
lines that are indented by the bodies open where they begin. -/
theorem ofList_write_pretty (depth : Nat) {ps : List Piece} (h : Covered depth ps)
    (before : List Piece)
    (hbefore : before.count .openBody = depth + before.count .closeBody) :
    String.ofList (write .pretty depth ps) =
      ownLine (lines ps).1 ++ indented (before ++ (lines ps).1) (lines ps).2 := by
  -- `before` grows along with the depth, so that the count of open bodies stays the depth
  induction ps generalizing depth before with
  | nil => rfl
  | cons p rest ih =>
      have hfirst := count_closeBody_lines rest
      cases p with
      | lineBreak =>
          have hrest := ih depth h.2 before hbefore
          rw [ofList_write_lineBreak, hrest, lines, List.append_nil, indented,
            openBodies_eq hbefore hfirst, ownLine_nil, String.empty_append, String.append_assoc]
          rfl
      | openBody =>
          have hopened : (before ++ [openBody]).count .openBody =
              depth + 1 + (before ++ [openBody]).count .closeBody := by
            simp [hbefore]
            omega
          have hrest := ih (depth + 1) h.2 (before ++ [.openBody]) hopened
          rw [ofList_write_openBody, hrest, lines, indented, openBodies_eq hopened hfirst]
          simp only [ownLine_cons, ownLine_nil, ownText, String.append_assoc, String.append_empty,
            Nat.sub_zero]
      | closeBody =>
          -- the break stands in front of the piece, on the line that closes the body
          have hpos := h.1 rfl
          have hclosed : (before ++ [closeBody]).count .openBody =
              depth - 1 + (before ++ [closeBody]).count .closeBody := by
            simp [hbefore]
            omega
          have hrest := ih (depth - 1) h.2 (before ++ [.closeBody]) hclosed
          have hline : (closeBody :: (lines rest).1).count .closeBody = 1 := by
            rw [List.count_cons_self, hfirst]
          rw [ofList_write_closeBody, hrest, lines, List.append_nil, indented,
            openBodies_eq hbefore hline, ownLine_cons]
          simp only [ownLine_nil, ownText, String.append_assoc, String.empty_append,
            List.append_assoc, List.singleton_append]
      | word _ | name _ | selector _ | quoted _ _ | placeholder _ | gap =>
          rw [ofList_write_inline rfl, lines_cons_of_inline rfl, ownLine_cons, List.append_cons,
            String.append_assoc]
          refine congrArg (_ ++ ·) (ih depth h.2 _ ?_)
          simpa using hbefore

end Piece

namespace Fragment

/-- A fragment has the same lines, the same placeholders and the same draws in both layouts,
which differ in what stands between the lines only. Spans keep their contents. A body is open
wherever one closes, and what stands behind a fragment is written at the depth before it. A
fragment that can be built has the same text if it is written step by step. -/
theorem lines_render (f : Fragment) (supply : NameSupply) :
    let pieces := (f.pieces supply).1
    let lines := Piece.lines pieces
    let compact := f.render .compact supply
    let pretty := f.render .pretty supply
    (pretty.1.uses = compact.1.uses ∧ pretty.2 = compact.2) ∧
    (lines.1 :: lines.2).flatten = pieces.filter (· != .lineBreak) ∧
    compact.1.text = " ".intercalate ((lines.1 :: lines.2).map Piece.ownLine) ∧
    pretty.1.text = Piece.ownLine lines.1 ++ Piece.indented lines.1 lines.2 ∧
    (Text.spans? compact.1.text = some f.quotations ∧
      Text.spans? pretty.1.text = some f.quotations) ∧
    (∀ before behind, pieces = before ++ .closeBody :: behind →
      ∃ outer, Piece.depthBehind 0 before = outer + 1 ∧
        ∀ layout, (Writer.empty.putAll layout before).depth = outer + 1 ∧
          Piece.write layout 0 pieces = Piece.write layout 0 before ++
            (layout.lineBreak outer ++ '\x7d' :: Piece.write layout outer behind)) ∧
    (∀ depth, Piece.depthBehind depth pieces = depth ∧
      ∀ layout rest, Piece.write layout depth (pieces ++ rest) =
        Piece.write layout depth pieces ++ Piece.write layout depth rest) ∧
    ∀ layout, (f.emit layout supply).depth = 0 ∧
      (f.Built → String.ofList (f.emit layout supply).text = (f.render layout supply).1.text) := by
  have hbalanced := f.balanced_pieces supply
  have hspans (layout : Layout) :
      Text.spans? (f.render layout supply).1.text = some f.quotations := by
    rw [Text.spans?, f.atoms?_render, Option.map_some, Piece.filterMap_span?_atoms,
      f.quotations_pieces]
  refine ⟨⟨rfl, rfl⟩, Piece.flatten_lines _, ?_, ?_, ⟨hspans .compact, hspans .pretty⟩, ?_, ?_,
    fun layout => ⟨f.depth_emit layout supply, fun hbuilt => hbuilt.sound.text_emit layout supply⟩⟩
  · exact (Piece.ofList_write_compact 0 _).trans (Piece.line_eq_intercalate _)
  · exact Piece.ofList_write_pretty 0 hbalanced.covered [] rfl
  · intro before behind hpieces
    obtain ⟨outer, houter⟩ := Nat.exists_eq_succ_of_ne_zero
      (hpieces ▸ hbalanced.covered).depth_pos.ne'
    refine ⟨outer, houter, fun layout => ⟨?_, ?_⟩⟩
    · exact (Writer.depth_putAll layout .empty before).trans houter
    · exact hpieces ▸ Piece.write_closeBody layout houter behind
  · intro depth
    have hdepth := hbalanced.depthBehind_eq depth
    refine ⟨hdepth, fun layout rest => ?_⟩
    rw [Piece.write_append, hdepth]

namespace Sample

/-- A subquery that returns a string with a line end in it. -/
def body : Fragment :=
  .clause (.subquery ⟨⟨[.returning ⟨false, .items ⟨.literal (.string "a\nb"), none⟩ []⟩]⟩, [],
    .distinct⟩)

end Sample

/-- The line end inside the quotes begins no line of the pretty layout. -/
example : (Sample.body.render .pretty .fresh).1.text = "CALL \x7b\n    RETURN \"a\nb\"\n\x7d" := by
  decide +kernel

/-- The subquery closes the body that it opens. It can be built, so writing it step by step gives
the same text. -/
theorem lines_render_subquery :
    (∃ before behind, (Sample.body.pieces .fresh).1 = before ++ .closeBody :: behind ∧
      ∃ outer, Piece.depthBehind 0 before = outer + 1) ∧
    Sample.body.Built ∧ String.ofList (Sample.body.emit .pretty .fresh).text =
      (Sample.body.render .pretty .fresh).1.text := by
  obtain ⟨-, -, -, -, -, hbodies, -, hemit⟩ := lines_render Sample.body .fresh
  have hbody := hbodies [.openBody, .word "RETURN ", .quoted .double "a\nb"] [] rfl
  have hquery : (query ⟨[.returning ⟨false, .items ⟨.literal (.string "a\nb"), none⟩ []⟩]⟩).Built :=
    .append .empty (.leaf rfl trivial)
  have hbuilt : Sample.body.Built := .subquery (.single hquery rfl)
  exact ⟨⟨_, [], rfl, hbody.imp fun _ houter => houter.1⟩, hbuilt, (hemit .pretty).2 hbuilt⟩

end Fragment

end GraphQuery
