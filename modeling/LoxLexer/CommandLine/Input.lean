/-! # Lines of input

What can be read as lines of text from the bytes of a file or a pipe. -/

namespace LoxLexer.CommandLine

/-- Input as text. If it is broken, a line that is not UTF-8 follows the text, which then consists
of the whole lines before it. -/
structure Input where
  text : String
  broken : Bool := false
  deriving DecidableEq, Repr

namespace Input

/-- The bytes up to each newline, and those after the last, as text where they are UTF-8. -/
def decodedLines (bytes : ByteArray) : List (Option String) :=
  (bytes.toList.splitOn 10).map fun line => String.fromUTF8? ⟨line.toArray⟩

/-- The input that consists of these bytes. -/
def ofBytes (bytes : ByteArray) : Input :=
  match String.fromUTF8? bytes with
  | some text => { text := text }
  | none =>
    let whole := ((decodedLines bytes).takeWhile Option.isSome).filterMap id
    { text := String.join (whole.map (· ++ "\n")), broken := true }

/-- A line without the carriage return before its newline. -/
def withoutReturn (line : List Char) : List Char :=
  if line.getLast? = some '\r' then line.dropLast else line

/-- The lines of the input. A line may end in a carriage return and a newline, and what follows the
last newline is a line of its own, taken as it is, unless it is empty. -/
def lines (input : Input) : List String :=
  let pieces := input.text.toList.splitOn '\n'
  let ended := pieces.dropLast.map withoutReturn
  let unended := (pieces.getLast?.toList).filter (· ≠ [])
  (ended ++ unended).map String.ofList

end Input

end LoxLexer.CommandLine
