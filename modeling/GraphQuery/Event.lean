import GraphQuery.Error
import GraphQuery.Value

/-!
# Events

What an operation reports beside its result. Events are values: an operation
returns those it has reported, in order, also when it fails.
-/

set_option autoImplicit false

namespace GraphQuery

/-- Weights of events. -/
inductive Level where
  | trace
  | debug
  | warn
  deriving DecidableEq

/-- The written name of a level. -/
def Level.name : Level → String
  | .trace => "TRACE"
  | .debug => "DEBUG"
  | .warn => "WARN"

/-- Reported events. -/
inductive Event where
  | rendered (text : String)
  | unusedParameter (name : Identifier)
  /-- A compiled text, by its length in bytes and its number of parameters. -/
  | compiled (length params : Nat)
  | misfit (name : Identifier) (expected : Kind) (value : Value)
  /-- A bound statement, by its number of parameters. -/
  | bound (params : Nat)
  | renamed (source target : Identifier)

namespace Event

/-- Weight of an event. -/
def level : Event → Level
  | .rendered _ => .trace
  | .unusedParameter _ => .warn
  | .compiled .. => .debug
  | .misfit .. => .warn
  | .bound _ => .debug
  | .renamed .. => .debug

/-- The message of an event, without its particulars. -/
def message : Event → String
  | .rendered _ => "rendered statement"
  | .unusedParameter _ => "declared parameter is never used"
  | .compiled .. => "compiled statement"
  | .misfit .. => "value does not fit declared kind"
  | .bound _ => "bound statement"
  | .renamed .. => "renamed colliding parameter"

end Event

/-- A result, or the error that took its place, with the events reported on the
way. -/
structure Logged (α : Type) where
  result : Except Error α
  events : List Event

end GraphQuery
