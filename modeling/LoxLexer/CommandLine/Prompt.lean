import LoxLexer.CommandLine.History
import LoxLexer.File.SourceText

/-! # The prompt

Without files the program reads lines from the standard input and scans each on its own: one
reporter serves all lines and is reset after each, and nothing else is carried over. Lines are
remembered in a history file between runs, which is loaded first and saved last. -/

namespace LoxLexer.CommandLine

/-- The path under which the command line logs. -/
def programPath : String := "main"

/-- The listing of tokens, one a line; a quiet run has none. -/
def listing (quiet : Bool) (tokens : List Token) : List Emission :=
  if quiet then [] else tokens.map fun token => .outLine token.text

namespace Prompt

/-- Reading one more line from a pipe. -/
def asked : Emission :=
  .log (.ofModule .debug "rustyline" "stdin is not a tty")

/-- The lines of an input, answered one by one. -/
def answer (quiet : Bool) (reporter : Reporter) : List String → List Emission
  | [] => []
  | line :: rest =>
    let scan := scanWith Reporter.sink reporter line
    asked :: scan.emissions ++ listing quiet scan.tokens ++ answer quiet scan.sink.reset rest

/-- The end of the input, or the line that is not text. -/
def farewell (input : Input) : List Emission :=
  [asked, if input.broken then .errLine ("err: " ++ FileError.notText.message) else .outLine "bye!"]

/-- A remembered line that is badly escaped. -/
def badlyEscaped (line : String) : Emission :=
  .log (.ofModule .warn "rustyline::history" ("bad escaped line: " ++ line))

/-- No file of remembered lines, or one that cannot be read to its end. -/
def noHistory : Emission :=
  .log (.ofModule .info programPath ("no history in " ++ History.file))

/-- Reading the remembered lines. -/
def loadHistory (read : FileReader) : List Emission :=
  match read History.file with
  | .error _ => [noHistory]
  | .ok content =>
    let remembered := Input.ofBytes content
    (History.brokenLines remembered.lines).map badlyEscaped ++
      if remembered.broken then [noHistory] else []

/-- The lines of an input that are worth remembering. -/
def entered (input : Input) : List String :=
  input.lines.filter (· ≠ "")

/-- What saving the history comes to if only a directory in the place of its file prevents it.
Without a line to remember nothing is saved. -/
def saving (read : FileReader) (input : Input) : Except FileError Unit :=
  match entered input, read History.file with
  | _ :: _, .error (.system .isADirectory) => .error (.system .isADirectory)
  | _, _ => .ok ()

/-- What has come of saving the history; only a failure is shown. -/
def storeHistory (saved : Except FileError Unit) : List Emission :=
  match saved with
  | .ok () => []
  | .error error => [.errLine ("couldn't save history: " ++ error.message)]

end Prompt

/-- What a prompt shows on an input, given what comes of saving the history at its end. -/
def prompt (quiet : Bool) (read : FileReader) (input : Input) (saved : Except FileError Unit) :
    List Emission :=
  Prompt.loadHistory read ++ Prompt.answer quiet { file := none } input.lines ++
    Prompt.farewell input ++ Prompt.storeHistory saved

end LoxLexer.CommandLine
