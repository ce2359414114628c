import LoxLexer.CommandLine.Input

/-! # The history file

The file in which lines are remembered between runs. In a file that begins with the header, a
newline in a line is written as `\n` and a backslash as `\\`, and no other escape has a meaning; a
file without the header holds its lines as they are. -/

namespace LoxLexer.CommandLine.History

/-- The file in which lines are remembered. -/
def file : String := ".lox_history"

/-- The first line of a file with escapes. -/
def header : String := "#V2"

/-- The line written below the header, unless a backslash in it begins no escape. -/
def unescape? : List Char → Option (List Char)
  | [] => some []
  | '\\' :: 'n' :: rest => (unescape? rest).map ('\n' :: ·)
  | '\\' :: '\\' :: rest => (unescape? rest).map ('\\' :: ·)
  | c :: rest => if c = '\\' then none else (unescape? rest).map (c :: ·)

/-- A line below the header is badly escaped. -/
def isBroken (line : String) : Bool :=
  (unescape? line.toList).isNone

/-- The lines of a file that are badly escaped. -/
def brokenLines : List String → List String
  | [] => []
  | first :: rest => if first = header then rest.filter isBroken else []

end LoxLexer.CommandLine.History
