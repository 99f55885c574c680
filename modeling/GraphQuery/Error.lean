import GraphQuery.Identifier
import GraphQuery.Kind
import GraphQuery.Number.Style
import GraphQuery.Text.Visible

/-!
# Errors

The reasons for which a part of a query, a declaration, a template or a
conditional is refused, and the message for each.
-/

set_option autoImplicit false

namespace GraphQuery

/-- Causes of failure. -/
inductive Error where
  | invalidIdentifier (text : String)
  | emptyArguments (function : String)
  | nonFiniteFloat (x : Number.Binary64)
  | emptyQuery
  | emptyUnion
  | missingReturn
  /-- A column with neither a name nor an alias, by its text. -/
  | unnamedColumn (text : String)
  | columnMismatch (expected found : List Identifier)
  | noCases
  /-- An arm, by its number, whose queries are joined without keeping duplicates. -/
  | distinctUnionArm (arm : Nat)
  | clauseAfterChoice (keyword : String)
  | duplicateParameter (name : Identifier)
  | undeclaredParameter (name : Identifier)
  | kindConflict (name : Identifier) (declared used : Kind)
  /-- Declared names without a value, and names of values that nothing declares. -/
  | parameterMismatch (missing : List Identifier) (unexpected : List String)
  | missingFallback
  deriving DecidableEq

namespace Error

/-- A name in backticks, as messages cite it. -/
def cited (name : String) : String := "\x60" ++ name ++ "\x60"

/-- Identifiers as messages list them. -/
def listed (names : List Identifier) : String :=
  Text.visibleList (names.map Identifier.text)

/-- The message for an error. -/
def message : Error → String
  | .invalidIdentifier text => "invalid identifier: " ++ Text.visible text
  | .emptyArguments function => "function " ++ cited function ++ " called with no arguments"
  | .nonFiniteFloat x => "float literal must be finite, got " ++ x.text
  | .emptyQuery => "query has no clauses"
  | .emptyUnion => "union needs at least one query"
  | .missingReturn => "branch query does not end in RETURN"
  | .unnamedColumn text => "branch column " ++ cited text ++ " has no name; alias it"
  | .columnMismatch expected found =>
      "branch columns differ: expected " ++ listed expected ++ ", found " ++ listed found
  | .noCases => "conditional needs at least one case"
  | .distinctUnionArm arm =>
      "branch " ++ Number.naturalText arm ++
        " is a UNION without ALL; conditional arms are joined with UNION ALL"
  | .clauseAfterChoice keyword =>
      cited keyword ++ " follows a conditional, which already ends in RETURN"
  | .duplicateParameter name =>
      "parameter " ++ cited name.text ++ " is declared more than once"
  | .undeclaredParameter name =>
      "parameter " ++ cited name.text ++ " is used but not declared"
  | .kindConflict name declared used =>
      "parameter " ++ cited name.text ++ " is declared as " ++ declared.name ++
        " but used as " ++ used.name
  | .parameterMismatch missing unexpected =>
      "parameter mismatch: missing " ++ listed missing ++ ", unexpected " ++
        Text.visibleList unexpected
  | .missingFallback => "conditional has no fallback branch"

end Error

end GraphQuery
