import LoxLexer.Emission
import LoxLexer.Log.Directive
import LoxLexer.Log.Line

/-! # Logging in a process

A process starts without a logger. The first directive installs one and fixes the maximum level of
the process; a later directive changes what the logger lets through and whether it paints, and
leaves the maximum as it is. -/

namespace LoxLexer.Log

/-- A logger: what it lets through and whether it paints. -/
structure Logger where
  filter : Filter
  painted : Bool
  deriving DecidableEq, Repr

/-- The logging of a process: its logger, if one is installed, and the most verbose level at which
records are handed to it. -/
structure Logging where
  logger : Option Logger := none
  maximum : Option Level := none
  deriving DecidableEq, Repr

namespace Logging

/-- Starts logging as a directive says; without a directive nothing changes. -/
def init (logging : Logging) (directive : Option String) (terminal : Bool) : Logging :=
  match directive with
  | none => logging
  | some text =>
    let filter := Filter.ofDirective text
    { logger := some ⟨filter, terminal⟩
      maximum := if logging.logger.isNone then filter.maximum else logging.maximum }

/-- The logger lets a record with this target and level through. -/
def enabled (logging : Logging) (target : String) (level : Level) : Bool :=
  logging.logger.any fun logger => logger.filter.allows target level

/-- What a record handed straight to the logger prints. -/
def write (logging : Logging) (record : Record) : String :=
  match logging.logger with
  | none => ""
  | some logger =>
    if logger.filter.allows record.target record.level then record.line logger.painted else ""

/-- Records of this level are handed to the logger. -/
def admits (logging : Logging) (level : Level) : Bool :=
  logging.maximum.any fun limit => level ≤ limit

/-- What an emission adds to the standard error: its text, or the line of a record that is both
admitted and let through. -/
def errText (logging : Logging) : Emission → String
  | .out _ => ""
  | .err text => text
  | .log record => if logging.admits record.level then logging.write record else ""

end Logging

end LoxLexer.Log
