import GraphQuery.Text.Letter
import GraphQuery.Text.Numeral

/-!
# Identifiers

An identifier may be written without quotes: it begins with a letter or an
underscore and goes on with letters, numerals and underscores.
-/

set_option autoImplicit false

namespace GraphQuery

/-- Characters an identifier may begin with. -/
def isIdentifierStart (c : Char) : Bool := Text.isLetter c || c == '_'

/-- Characters an identifier may go on with. -/
def isIdentifierPart (c : Char) : Bool :=
  Text.isLetter c || Text.isNumeral c || c == '_'

/-- Texts that are identifiers. -/
def isIdentifier : List Char → Bool
  | [] => false
  | c :: rest => isIdentifierStart c && rest.all isIdentifierPart

/-- A text that may be written without quotes. -/
structure Identifier where
  text : String
  legal : isIdentifier text.toList = true
  deriving DecidableEq

namespace Identifier

/-- The identifier of the given text, if the text is one. -/
def of? (text : String) : Option Identifier :=
  if h : isIdentifier text.toList = true then some ⟨text, h⟩ else none

theorem of?_text (i : Identifier) : of? i.text = some i := by
  simp [of?, i.legal]

end Identifier

end GraphQuery
