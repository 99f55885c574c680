import GraphQuery.Proofs.Reading.Numeral
import GraphQuery.Proofs.Text.Tokens

/-!
# A reader of expressions

A pushdown machine that reads the tokens of an expression from left to right, one
token per step, and builds the expression. Its stack holds a frame for everything
that is still open: parentheses, the parts of a conditional, operators that wait for
their last operand. The machine has no rules of precedence. An operator on top of the
stack takes its operand as soon as a token ends the expression around it.

The text does not show the kinds of placeholders; the machine gives them the kind
`any`.
-/

set_option autoImplicit false

namespace GraphQuery

open Text (Token)

/-- Words and signs between two operands, without the spaces. -/
def BinaryOp.tokens : BinaryOp → List Token
  | .isIn => [.word "IN".toList]
  | .startsWith => [.word "STARTS".toList, .word "WITH".toList]
  | .endsWith => [.word "ENDS".toList, .word "WITH".toList]
  | .contains => [.word "CONTAINS".toList]
  | .or => [.word "OR".toList]
  | .and => [.word "AND".toList]
  | .xor => [.word "XOR".toList]
  | .less => [.sign '<']
  | .lessEq => [.sign '<', .sign '=']
  | .greaterEq => [.sign '>', .sign '=']
  | .greater => [.sign '>']
  | .eq => [.sign '=']
  | .notEq => [.sign '<', .sign '>']

/-- The operator with the given words between its operands. -/
def BinaryOp.ofTokens? (ts : List Token) : Option BinaryOp :=
  [isIn, startsWith, endsWith, contains, or, and, xor, less, lessEq, greaterEq, greater, eq,
    notEq].find? fun op => op.tokens = ts

namespace Reader

/-- Lists of expressions with commas between them. -/
inductive Sequence where
  | arguments (function : String)
  | items

/-- What is open around the expression at hand, with what has been read of it. -/
inductive Frame where
  | group
  | sequence (kind : Sequence) (done : List Expr)
  | entry (done : List (String × Expr)) (key : String)
  | index (subject : Expr)
  | sliceTo (subject : Expr)
  | slice (subject : Expr) (low : Expr)
  | negation
  | rightOf (op : BinaryOp) (left : Expr)
  | condition (done : List (Expr × Expr))
  | result (done : List (Expr × Expr)) (condition : Expr)
  | fallback (arms : List (Expr × Expr))

/-- What the reader has at hand. In the phase `point` a point was read that is a part
of the number if a word follows, and in the phase `joint` a space behind an expression
and the words that came after it. -/
inductive Focus where
  | expecting
  | numeral (s : List Char)
  | point (s : List Char)
  | complete (e : Expr)
  | dot (e : Expr)
  | joint (e : Expr) (words : List Token)
  | parameter
  | function (name : String)
  | caseHead
  | key (done : List (String × Expr))
  | colon (done : List (String × Expr)) (key : String)

/-- States of the reader. The innermost frame comes first. -/
structure State where
  frames : List Frame
  focus : Focus

/-- What ends an expression inside a frame. -/
inductive Mark where
  | comma
  | paren
  | bracket
  | range
  | brace
  | arm
  | result
  | fallback
  | finish
  deriving DecidableEq

/-- Tokens of a mark, with the space before it. -/
def Mark.tokens : Mark → List Token
  | .comma => [.sign ',']
  | .paren => [.sign ')']
  | .bracket => [.sign ']']
  | .range => [.sign '.', .sign '.']
  | .brace => [.sign ' ', .sign '\x7d']
  | .arm => [.sign ' ', .word "WHEN".toList]
  | .result => [.sign ' ', .word "THEN".toList]
  | .fallback => [.sign ' ', .word "ELSE".toList]
  | .finish => [.sign ' ', .word "END".toList]

/-- The mark that ends with the given token. A range takes two points and is not
found in this way. -/
def Mark.ofToken? (t : Token) : Option Mark :=
  [comma, paren, bracket, brace, arm, result, fallback, finish].find? fun m =>
    m.tokens.getLast? = some t

/-! ## Frames -/

/-- The mark behind the last expression of a sequence. -/
def Sequence.closer : Sequence → Mark
  | .arguments _ => .paren
  | .items => .bracket

/-- The expression that a sequence is. A call has an argument. -/
def Sequence.build? : Sequence → List Expr → Option Expr
  | .arguments _, [] => none
  | .arguments function, first :: rest => some (.call function first rest)
  | .items, es => some (.list es)

/-- The conditional with the given arms, if there are any. -/
def caseOf? : List (Expr × Expr) → Option Expr → Option Expr
  | [], _ => none
  | (condition, result) :: more, fallback => some (.case condition result more fallback)

/-- Whether a frame is an operator that waits for its last operand. -/
def Frame.isOperator : Frame → Bool
  | .negation => true
  | .rightOf .. => true
  | _ => false

/-- How a frame goes on when the expression in it ended with a mark: the frame that
takes its place, if any, and the focus. -/
def Frame.resume : Frame → Expr → Mark → Option (List Frame × Focus)
  | .group, e, .paren => some ([], .complete e)
  | .sequence kind done, e, m =>
      if m = .comma then some ([.sequence kind (done ++ [e])], .expecting)
      else if m = kind.closer then (kind.build? (done ++ [e])).map fun e => ([], .complete e)
      else none
  | .entry done key, e, .comma => some ([], .key (done ++ [(key, e)]))
  | .entry done key, e, .brace => some ([], .complete (.map (done ++ [(key, e)])))
  | .index subject, e, .bracket => some ([], .complete (.index subject e))
  | .index subject, e, .range => some ([.slice subject e], .expecting)
  | .sliceTo subject, e, .bracket => some ([], .complete (.sliceTo subject e))
  | .slice subject low, e, .bracket => some ([], .complete (.slice subject low e))
  | .condition done, e, .result => some ([.result done e], .expecting)
  | .result done c, e, .arm => some ([.condition (done ++ [(c, e)])], .expecting)
  | .result done c, e, .fallback => some ([.fallback (done ++ [(c, e)])], .expecting)
  | .result done c, e, .finish =>
      (caseOf? (done ++ [(c, e)]) none).map fun e => ([], .complete e)
  | .fallback arms, e, .finish => (caseOf? arms (some e)).map fun e => ([], .complete e)
  | _, _, _ => none

/-- An operator on top of the stack takes its last operand. -/
def settle : List Frame → Expr → List Frame × Expr
  | .negation :: fs, e => (fs, .unary .not e)
  | .rightOf op left :: fs, e => (fs, .binary op left e)
  | fs, e => (fs, e)

/-- The state behind an expression that ended with a mark. -/
def resume (fs : List Frame) (e : Expr) (m : Mark) : Option State :=
  match settle fs e with
  | ([], _) => none
  | (f :: fs, e) => (f.resume e m).map fun (inner, focus) => ⟨inner ++ fs, focus⟩

/-! ## Steps -/

/-- Step at the beginning of an expression. -/
def stepExpecting (fs : List Frame) : Token → Option State
  | .word w =>
      -- no identifier begins with a digit, so this is no variable
      if w.head?.any Char.isDigit then some ⟨fs, .numeral w⟩
      else if w = "CASE".toList then some ⟨fs, .caseHead⟩
      else if w = "NOT".toList then some ⟨.negation :: fs, .expecting⟩
      else if w = "null".toList then some ⟨fs, .complete (.literal .null)⟩
      else if w = "true".toList then some ⟨fs, .complete (.literal (.bool true))⟩
      else if w = "false".toList then some ⟨fs, .complete (.literal (.bool false))⟩
      else (Identifier.of? (String.ofList w)).map fun var => ⟨fs, .complete (.name var)⟩
  | .quoted .backtick s => some ⟨fs, .function (String.ofList s)⟩
  | .quoted .double s => some ⟨fs, .complete (.literal (.string (String.ofList s)))⟩
  | .sign ' ' => some ⟨fs, .expecting⟩
  | .sign '-' => some ⟨fs, .numeral ['-']⟩
  | .sign '$' => some ⟨fs, .parameter⟩
  | .sign '(' => some ⟨.group :: fs, .expecting⟩
  | .sign '[' => some ⟨.sequence .items [] :: fs, .expecting⟩
  | .sign '\x7b' => some ⟨fs, .key []⟩
  | .sign '.' =>
      -- the two points before the upper bound of a slice without a lower one
      match fs with
      | .index subject :: fs => some ⟨.sliceTo subject :: fs, .expecting⟩
      | .sliceTo subject :: fs => some ⟨.sliceTo subject :: fs, .expecting⟩
      | _ => none
  | .sign ']' =>
      -- an empty list, or a slice without an upper bound
      match fs with
      | .sequence .items [] :: fs => some ⟨fs, .complete (.list [])⟩
      | .slice subject low :: fs => some ⟨fs, .complete (.sliceFrom subject low)⟩
      | _ => none
  | .sign _ => none

/-- Step behind an expression. -/
def stepComplete (fs : List Frame) (e : Expr) : Token → Option State
  | .sign '.' => some ⟨fs, .dot e⟩
  | .sign '[' => some ⟨.index e :: fs, .expecting⟩
  | .sign ' ' => some ⟨fs, .joint e []⟩
  | t => (Mark.ofToken? t).bind (resume fs e)

/-- Step behind an expression and a point. -/
def stepDot (fs : List Frame) (e : Expr) : Token → Option State
  | .quoted .backtick key => some ⟨fs, .complete (.property e (String.ofList key))⟩
  | .sign '.' => resume fs e .range
  | _ => none

/-- The operator that the given words behind its operand make. -/
def nullTest? (ts : List Token) : Option UnaryOp :=
  if ts = [.word "IS".toList, .word "NULL".toList] then some .isNull
  else if ts = [.word "IS".toList, .word "NOT".toList, .word "NULL".toList] then some .isNotNull
  else none

/-- Step behind an expression, a space and some words. -/
def stepJoint (fs : List Frame) (e : Expr) (words : List Token) (t : Token) : Option State :=
  if t = .sign ' ' then
    -- `<` begins other operators too, so an operator ends at a space only
    match BinaryOp.ofTokens? words with
    | some op => some ⟨.rightOf op e :: fs, .expecting⟩
    | none => some ⟨fs, .joint e words⟩
  else
    match Mark.ofToken? t with
    | some m => resume fs e m
    | none =>
        match nullTest? (words ++ [t]) with
        | some op => some ⟨fs, .complete (.unary op e)⟩
        | none => some ⟨fs, .joint e (words ++ [t])⟩

/-- Step inside a map, where a key or the end of an empty map may stand. -/
def stepKey (fs : List Frame) (done : List (String × Expr)) : Token → Option State
  | .sign ' ' => some ⟨fs, .key done⟩
  | .sign '\x7d' => if done.isEmpty then some ⟨fs, .complete (.map [])⟩ else none
  | .quoted .backtick key => some ⟨fs, .colon done (String.ofList key)⟩
  | _ => none

/-- Step inside or behind a number. -/
noncomputable def stepNumeral (fs : List Frame) (s : List Char) : Token → Option State
  | .word w => some ⟨fs, .numeral (s ++ w)⟩
  | .sign '-' => some ⟨fs, .numeral (s ++ ['-'])⟩
  | .sign '.' => some ⟨fs, .point s⟩
  | t => (Literal.ofNumeral? s).bind fun value => stepComplete fs (.literal value) t

/-- Step behind a number and a point. -/
noncomputable def stepPoint (fs : List Frame) (s : List Char) : Token → Option State
  | .word w => some ⟨fs, .numeral (s ++ '.' :: w)⟩
  | t => (Literal.ofNumeral? s).bind fun value => stepDot fs (.literal value) t

/-- One step of the reader. -/
noncomputable def step : State → Token → Option State
  | ⟨fs, .expecting⟩, t => stepExpecting fs t
  | ⟨fs, .numeral s⟩, t => stepNumeral fs s t
  | ⟨fs, .point s⟩, t => stepPoint fs s t
  | ⟨fs, .complete e⟩, t => stepComplete fs e t
  | ⟨fs, .dot e⟩, t => stepDot fs e t
  | ⟨fs, .joint e words⟩, t => stepJoint fs e words t
  | ⟨fs, .parameter⟩, .word w =>
      (Identifier.of? (String.ofList w)).map fun name =>
        ⟨fs, .complete (.placeholder ⟨name, .any⟩)⟩
  | ⟨fs, .function name⟩, .sign '(' => some ⟨.sequence (.arguments name) [] :: fs, .expecting⟩
  | ⟨fs, .caseHead⟩, .sign ' ' => some ⟨fs, .caseHead⟩
  | ⟨fs, .caseHead⟩, .word w =>
      if w = "WHEN".toList then some ⟨.condition [] :: fs, .expecting⟩ else none
  | ⟨fs, .key done⟩, t => stepKey fs done t
  | ⟨fs, .colon done key⟩, .sign ':' => some ⟨.entry done key :: fs, .expecting⟩
  | _, _ => none

/-- The expression that was read when nothing around it is open any more. -/
def close (fs : List Frame) (e : Expr) : Option Expr :=
  match settle fs e with
  | ([], e) => some e
  | _ => none

/-- The expression of a state at the end of the text. -/
noncomputable def finish : State → Option Expr
  | ⟨fs, .complete e⟩ => close fs e
  | ⟨fs, .numeral s⟩ => (Literal.ofNumeral? s).bind fun value => close fs (.literal value)
  | _ => none

/-- The expression that the reader makes of the tokens from a state on. -/
noncomputable def read : State → List Token → Option Expr
  | s, [] => finish s
  | s, t :: ts => (step s t).bind fun s => read s ts

end Reader

end GraphQuery
