import GraphQuery.Rendering.Piece

/-!
# Writing text step by step

Text grows at its end, and what comes next depends on what is there. A space is left out where
nothing stands before it on its line, and a line is indented when its first text is written, not
when it begins.
-/

set_option autoImplicit false

namespace GraphQuery

/-- A text that is being written. -/
structure Writer where
  text : List Char
  /-- Number of subquery bodies that are open. -/
  depth : Nat
  /-- Whether a line has begun on which nothing has been written yet. -/
  atLineStart : Bool

namespace Writer

/-- Nothing has been written. -/
def empty : Writer := ⟨[], 0, true⟩

/-- What the next text on the line comes behind. -/
def indentation (layout : Layout) (w : Writer) : List Char :=
  match layout with
  | .compact => []
  | .pretty => if w.atLineStart then List.replicate (4 * w.depth) ' ' else []

/-- Writes on the line. -/
def write (layout : Layout) (w : Writer) (chars : List Char) : Writer :=
  ⟨w.text ++ w.indentation layout ++ chars, w.depth, false⟩

/-- Writes a space, unless nothing stands before it on its line. -/
def space (w : Writer) : Writer :=
  if w.text.isEmpty || w.atLineStart then w else ⟨w.text ++ [' '], w.depth, w.atLineStart⟩

/-- Ends the line, which takes a space in the compact layout. -/
def newline (layout : Layout) (w : Writer) : Writer :=
  match layout with
  | .compact => w.space
  | .pretty => ⟨w.text ++ ['\n'], w.depth, true⟩

/-- Indents the lines that follow by one more body. -/
def indent (w : Writer) : Writer := ⟨w.text, w.depth + 1, w.atLineStart⟩

/-- Indents the lines that follow by one body less, as long as any is open. -/
def dedent (w : Writer) : Writer := ⟨w.text, w.depth - 1, w.atLineStart⟩

/-- Writes a piece. -/
def put (layout : Layout) (w : Writer) : Piece → Writer
  | .word text => w.write layout text.toList
  | .name id => w.write layout id.text.toList
  | .selector id => w.write layout id.text.toList
  | .quoted quote content => w.write layout (quote.encode content)
  | .placeholder p => (w.write layout ['$']).write layout p.name.text.toList
  | .gap => w.space
  | .lineBreak => w.newline layout
  | .openBody => (w.write layout "CALL \x7b".toList).indent.newline layout
  | .closeBody => (w.dedent.newline layout).write layout ['\x7d']

/-- Writes pieces one after the other. -/
def putAll (layout : Layout) (w : Writer) (ps : List Piece) : Writer := ps.foldl (put layout) w

end Writer

end GraphQuery
