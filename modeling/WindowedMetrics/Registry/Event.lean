/-
What operations report to the log.
-/

namespace WindowedMetrics

/-- How important a log event is. -/
inductive Level
  | debug
  | info
  | warn
deriving Repr, DecidableEq

/-- The name of a level. -/
def Level.text : Level → String
  | debug => "DEBUG"
  | info => "INFO"
  | warn => "WARN"

/-- The value of a field of a log event. -/
inductive Field
  | text (value : String)
  | count (value : Nat)
  | number (value : Float)

/-- A log event: a message with named fields. -/
structure Event where
  level : Level
  message : String
  fields : List (String × Field)

/-- The answer of an operation with the events that it reports, in order. -/
structure Logged (A : Type) where
  value : A
  events : List Event

end WindowedMetrics
