/-!
# Events

What a run reports about itself while it goes on: messages, each with a level and the part of
the program that it comes from.
-/

namespace TestBench

/-- How much an event matters, from the gravest level on. -/
inductive Level where
  | error
  | warn
  | info
  | debug
  | trace
deriving Repr, DecidableEq

/-- A level as a number: the graver, the smaller. -/
def Level.rank : Level → Nat
  | .error => 1
  | .warn => 2
  | .info => 3
  | .debug => 4
  | .trace => 5

/-- The parts of the program that report events. -/
inductive Reporter where
  | program
  | extraction
  | synthesis
  | lookup
  | reading
  | workspace
  | coverage
  | pipeline
  | engine
  | process
deriving Repr, DecidableEq

/-- A message with its level and its origin. -/
structure Event where
  level : Level
  reporter : Reporter
  message : String
deriving Repr, DecidableEq

end TestBench
