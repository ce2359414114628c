/-! # Log levels

How important a log record is, from errors, which matter most, to traces, which matter least. -/

namespace LoxLexer.Log

/-- The level of a record. -/
inductive Level where
  | error
  | warn
  | info
  | debug
  | trace
  deriving DecidableEq, Repr

namespace Level

/-- How much a filter set to this level lets through: an error least, a trace most. -/
def verbosity : Level → Nat
  | error => 1
  | warn => 2
  | info => 3
  | debug => 4
  | trace => 5

/-- A level comes before every more verbose one. -/
instance : LE Level where
  le a b := a.verbosity ≤ b.verbosity

instance (a b : Level) : Decidable (a ≤ b) :=
  inferInstanceAs (Decidable (a.verbosity ≤ b.verbosity))

instance : Max Level where
  max a b := if a ≤ b then b else a

/-- The name of the level, in lower case. -/
def word : Level → String
  | error => "error"
  | warn => "warn"
  | info => "info"
  | debug => "debug"
  | trace => "trace"

/-- The name of the level, in capitals. -/
def name : Level → String
  | error => "ERROR"
  | warn => "WARN"
  | info => "INFO"
  | debug => "DEBUG"
  | trace => "TRACE"

/-- Every level, the least verbose first. -/
def all : List Level :=
  [error, warn, info, debug, trace]

/-- The level with this name, in letters of either case. -/
def ofLetters? (letters : List Char) : Option Level :=
  all.find? fun level => level.word.toList == letters.map Char.toLower

end Level

end LoxLexer.Log
