import GraphQuery.Text.Invisible
import GraphQuery.Text.Combining

/-!
# Strings inside messages

A message shows a string between double quotes, in a form in which no two
strings look alike: what cannot be seen, or would be drawn on its neighbour, is
written as a code point in hexadecimal.
-/

set_option autoImplicit false

namespace GraphQuery.Text

/-- Hexadecimal digits of a number, lower case, no leading zero. -/
def hexDigits (n : Nat) : List Char := Nat.toDigits 16 n

/-- One character of a shown string. -/
def visibleChar (c : Char) : List Char :=
  match c with
  | '\x00' => ['\\', '0']
  | '\t' => ['\\', 't']
  | '\n' => ['\\', 'n']
  | '\r' => ['\\', 'r']
  | '"' => ['\\', '"']
  | '\\' => ['\\', '\\']
  | c =>
      if isCombining c || isInvisible c then
        ['\\', 'u', '\x7b'] ++ hexDigits c.toNat ++ ['\x7d']
      else [c]

/-- A shown string, with its quotes. -/
def visible (s : String) : String :=
  String.ofList ('"' :: s.toList.flatMap visibleChar ++ ['"'])

/-- A shown list of strings. -/
def visibleList (ss : List String) : String :=
  "[" ++ ", ".intercalate (ss.map visible) ++ "]"

end GraphQuery.Text
