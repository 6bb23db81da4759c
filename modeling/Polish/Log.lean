/-!
# Log records

A log record is a text with a level. A log shows the records whose level is at least as urgent as a threshold.
-/

namespace Polish.Log

/-- How urgent a record is. -/
inductive Level where
  | error
  | warn
  | info
  | debug
  | trace
deriving DecidableEq

namespace Level

/-- The level's place, counted from the most urgent. -/
def rank : Level → Nat
  | error => 1
  | warn => 2
  | info => 3
  | debug => 4
  | trace => 5

/-- The level's name in capitals. -/
def name : Level → String
  | error => "ERROR"
  | warn => "WARN"
  | info => "INFO"
  | debug => "DEBUG"
  | trace => "TRACE"

end Level

/-- One entry of a log. -/
structure Record where
  level : Level
  message : String
deriving DecidableEq

/-- The records that a log with the given verbosity shows: those of rank at most `verbosity`. -/
def visible (verbosity : Int) (records : List Record) : List Record :=
  records.filter fun record => record.level.rank ≤ verbosity

end Polish.Log
