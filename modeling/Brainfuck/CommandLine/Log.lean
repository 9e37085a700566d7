/-!
Log records and their levels. How often `-v` is given decides which levels are shown; errors always
are.
-/

namespace Brainfuck.CommandLine

/-- How important a record is, the most important first. -/
inductive Level where
  | error
  | info
  | debug
  | trace
deriving DecidableEq, Repr

namespace Level

/-- The written name of a level. -/
def name : Level → String
  | .error => "ERROR"
  | .info => "INFO"
  | .debug => "DEBUG"
  | .trace => "TRACE"

/-- How often `-v` has to be given for a level to be shown. -/
def rank : Level → Nat
  | .error => 0
  | .info => 1
  | .debug => 2
  | .trace => 3

/-- Whether a level is shown when `-v` was given `verbosity` times. -/
def isShown (level : Level) (verbosity : Nat) : Bool :=
  level.rank ≤ verbosity

end Level

/-- The part of the program that a record speaks of. -/
inductive Topic where
  | program
  | optimizer
  | generator
  | tape
deriving DecidableEq, Repr

/-- The written name of a topic. -/
def Topic.name : Topic → String
  | .program => "bf2cpp"
  | .optimizer => "bf2cpp::optimizer"
  | .generator => "bf2cpp::codegen"
  | .tape => "bf2cpp::tape"

/-- One line of the log. -/
structure Record where
  level : Level
  topic : Topic
  message : String
deriving DecidableEq, Repr

end Brainfuck.CommandLine
