import GraphQuery.Number.Style

/-!
# JSON texts

JSON values and their compact text. Objects keep the order of their members. A
double that is not finite has no JSON number; `null` takes its place.
-/

set_option autoImplicit false

namespace GraphQuery

/-- JSON values, whole numbers and doubles apart. -/
inductive Json where
  | null
  | bool (b : Bool)
  | int (n : Int)
  | double (x : Number.FiniteDouble)
  | string (s : String)
  | array (items : List Json)
  | object (members : List (String × Json))

namespace Json

/-- The JSON number of a double, or `null` for a double that has none. -/
def ofDouble (x : Number.Binary64) : Json :=
  match Number.FiniteDouble.of? x with
  | some finite => .double finite
  | none => .null

/-- A number below 16 as one lower-case hexadecimal digit. -/
def hexDigit (n : Nat) : Char := Nat.digitChar n

/-- One character of a JSON string. Only the quote mark, the backslash and the
controls below the space are escaped. -/
def escapedChar (c : Char) : List Char :=
  match c with
  | '"' => ['\\', '"']
  | '\\' => ['\\', '\\']
  | '\x08' => ['\\', 'b']
  | '\t' => ['\\', 't']
  | '\n' => ['\\', 'n']
  | '\x0c' => ['\\', 'f']
  | '\r' => ['\\', 'r']
  | c =>
      if c.toNat < 0x20 then
        ['\\', 'u', '0', '0', hexDigit (c.toNat / 16), hexDigit (c.toNat % 16)]
      else [c]

/-- A JSON string with its quotes. -/
def quoted (s : String) : List Char :=
  '"' :: s.toList.flatMap escapedChar ++ ['"']

mutual

/-- Compact text. -/
def chars : Json → List Char
  | .null => "null".toList
  | .bool b => (if b then "true" else "false").toList
  | .int n => Number.signedDigits n
  | .double x => (x.value.write Number.jsonStyle).toList
  | .string s => quoted s
  | .array items => '[' :: itemChars items ++ [']']
  | .object members => '\x7b' :: memberChars members ++ ['\x7d']

/-- Items of an array, with commas between them. -/
def itemChars : List Json → List Char
  | [] => []
  | [j] => j.chars
  | j :: rest => j.chars ++ ',' :: itemChars rest

/-- Members of an object, with commas between them. -/
def memberChars : List (String × Json) → List Char
  | [] => []
  | [(key, j)] => quoted key ++ ':' :: j.chars
  | (key, j) :: rest => quoted key ++ ':' :: j.chars ++ ',' :: memberChars rest

end

/-- Compact text as a string. -/
def text (j : Json) : String := String.ofList j.chars

end Json

end GraphQuery
