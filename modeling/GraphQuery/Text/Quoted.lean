/-!
# Quoted text

Names that need not be identifiers are written between backticks, string
literals between double quotes. Inside, the quote mark is written twice and
every other character once. The span ends at the first mark that no second mark
follows, so a reader finds its end and recovers the content.

Main statement: `Quote.scan?_doubled`, scanning behind the opening mark of a
written form stops at its closing mark and returns its content.
-/

set_option autoImplicit false

namespace GraphQuery.Text

/-- The two kinds of quoted span. -/
inductive Quote where
  | backtick
  | double
  deriving DecidableEq

namespace Quote

/-- The character that opens and closes a span. -/
def mark : Quote → Char
  | .backtick => '\x60'
  | .double => '"'

/-- Content with every quote mark written twice. -/
def doubled (q : Quote) : List Char → List Char
  | [] => []
  | c :: rest =>
      if c = q.mark then c :: c :: doubled q rest else c :: doubled q rest

/-- Content and remaining text of a span whose opening mark has been read; `none`
if the span never ends. -/
def scan? (q : Quote) : List Char → Option (List Char × List Char)
  | [] => none
  | [c] => if c = q.mark then some ([], []) else none
  | c :: d :: rest =>
      if c = q.mark then
        if d = q.mark then (scan? q rest).map fun (content, left) => (c :: content, left)
        else some ([], d :: rest)
      else (scan? q (d :: rest)).map fun (content, left) => (c :: content, left)

/-- The written form of a content, with its marks. -/
def encode (q : Quote) (content : String) : List Char :=
  q.mark :: doubled q content.toList ++ [q.mark]

/-- Content of a text that is one written form and nothing else. -/
def decode? (q : Quote) : List Char → Option (List Char)
  | [] => none
  | c :: rest =>
      if c = q.mark then
        match q.scan? rest with
        | some (content, []) => some content
        | _ => none
      else none

theorem scan?_doubled (q : Quote) (s t : List Char) (ht : t.head? ≠ some q.mark) :
    q.scan? (q.doubled s ++ q.mark :: t) = some (s, t) := by
  induction s with
  | nil =>
      cases t with
      | nil => simp [doubled, scan?]
      | cons d rest => simp_all [doubled, scan?]
  | cons c rest ih =>
      by_cases h : c = q.mark
      · simp [doubled, scan?, h, ih]
      · cases hr : q.doubled rest ++ q.mark :: t with
        | nil => simp at hr
        | cons d tail => simp_all [doubled, scan?]

end Quote

/-- A name that need not be an identifier, such as a label or a map key. -/
def quoteName (name : String) : String := String.ofList (Quote.backtick.encode name)

/-- A string literal. -/
def quoteString (s : String) : String := String.ofList (Quote.double.encode s)

end GraphQuery.Text
