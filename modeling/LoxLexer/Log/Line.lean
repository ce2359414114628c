import LoxLexer.Log.Record
import LoxLexer.Text.Basic

/-! # Log lines

How a record is printed: its level, the path it comes from in brackets, and its message. On a
terminal the level and the path are painted in the colours of the level. -/

namespace LoxLexer.Log

/-- A terminal control sequence. -/
def controlSequence (parameters : String) : String :=
  "\x1b[" ++ parameters ++ "m"

/-- The control sequences before and after a text painted in the colours of a level. -/
def Level.paint (level : Level) : String × String :=
  match level with
  | error => (controlSequence "30;101", controlSequence "0")
  | warn => (controlSequence "93", controlSequence "39")
  | info => (controlSequence "36", controlSequence "39")
  | debug => (controlSequence "34", controlSequence "39")
  | trace =>
    (controlSequence "2" ++ controlSequence "32", controlSequence "39" ++ controlSequence "0")

/-- The name of the level filled up with spaces to the width of the longest. -/
def Level.padded (level : Level) : String :=
  Text.column 5 level.name

/-- The printed record, with or without colours. -/
def Record.line (record : Record) (painted : Bool) : String :=
  let (before, after) := if painted then record.level.paint else ("", "")
  let part (text : String) : String := before ++ text ++ after
  part record.level.padded ++ " " ++ part ("[" ++ record.origin ++ "]") ++ " " ++ record.message
    ++ "\n"

end LoxLexer.Log
