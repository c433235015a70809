/-! # Log events

What happens on the way to a result is told as data: a list of events in order. A function that
tells events stands beside the function that gives the result. -/

namespace SqlFootprint

/-- How much an event matters. -/
inductive Level where
  | debug | info | warn
  deriving DecidableEq, Repr

/-- The name of a level. -/
def Level.name : Level → String
  | .debug => "DEBUG"
  | .info => "INFO"
  | .warn => "WARN"

/-- Something that happened. -/
structure Event where
  /-- How much it matters. -/
  level : Level
  /-- What happened, in words. -/
  text : String
  deriving DecidableEq, Repr

end SqlFootprint
