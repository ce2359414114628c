import LoxLexer.Log.Record

/-! # Emissions

What a run shows to the outside, in the order in which it does: text on one of the two outputs, or
a record for the log. Whether a record is printed is for a logger to decide, so a list of emissions
is the same under every logger. -/

namespace LoxLexer

/-- Something shown to the outside. -/
inductive Emission where
  /-- Text on the standard output. -/
  | out (text : String)
  /-- Text on the standard error. -/
  | err (text : String)
  /-- A record for the log. -/
  | log (record : Log.Record)
  deriving DecidableEq, Repr

namespace Emission

/-- A line on the standard output. -/
def outLine (line : String) : Emission :=
  out (line ++ "\n")

/-- A line on the standard error. -/
def errLine (line : String) : Emission :=
  err (line ++ "\n")

/-- The text for the standard output. -/
def outText : Emission → String
  | out text => text
  | err _ | log _ => ""

/-- The text for the standard error where nothing is logged. -/
def errText : Emission → String
  | err text => text
  | out _ | log _ => ""

end Emission

end LoxLexer
