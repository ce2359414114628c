import LoxLexer.CommandLine.Program

/-! # The command

The program as a command: it gathers what a run depends on, and shows what the run shows. -/

namespace LoxLexer.CommandLine

/-- The file error for a failure reported while a file was read or written. A code may come with its
sign changed. -/
def fileError (failure : IO.Error) : FileError :=
  let ofCode (code : UInt32) : FileError :=
    let number := code.toInt32.toInt.natAbs
    (SystemError.ofCode? number).elim (.stated .other (toString failure)) .system
  match failure with
  | .alreadyExists _ code _ => ofCode code
  | .hardwareFault code _ => ofCode code
  | .inappropriateType _ code _ => ofCode code
  | .invalidArgument _ code _ => ofCode code
  | .noFileOrDirectory _ code _ => ofCode code
  | .otherError code _ => ofCode code
  | .permissionDenied _ code _ => ofCode code
  | .resourceExhausted _ code _ => ofCode code
  | _ => .stated .other (toString failure)

/-- The content of a file, or why it cannot be read. -/
def readFile (path : String) : IO (Except FileError ByteArray) := do
  try
    return .ok (← IO.FS.readBinFile path)
  catch failure =>
    return .error (fileError failure)

/-- All that is left of a stream. -/
partial def readRest (stream : IO.FS.Stream) (before : ByteArray) : IO ByteArray := do
  let chunk ← stream.read 65536
  if chunk.isEmpty then return before
  readRest stream (before ++ chunk)

namespace History

/-- A line as it is written below the header. -/
def escape (line : String) : String :=
  String.join <| line.toList.map fun c =>
    if c = '\n' then "\\n" else if c = '\\' then "\\\\" else c.toString

/-- The line that is written so, or what is written if that is badly escaped. -/
def unescaped (line : String) : String :=
  (unescape? line.toList).elim line String.ofList

/-- The lines remembered with one more, unless it is empty or the same as the last. No more than a
hundred are remembered. -/
def remember (earlier : List String) (line : String) : List String :=
  if line = "" ∨ earlier.getLast? = some line then earlier
  else (earlier ++ [line]).drop (earlier.length + 1 - 100)

/-- The lines that a file remembers. -/
def recalled : List String → List String
  | [] => []
  | first :: rest =>
    (if first = header then rest.map unescaped else first :: rest).foldl remember []

/-- The text of a file that remembers lines. -/
def text (lines : List String) : String :=
  String.join ((header :: lines.map escape).map (· ++ "\n"))

end History

/-- Saves the history with the lines of a prompt, if there is a line to add. -/
def saveHistory (read : FileReader) (input : Input) : IO (Except FileError Unit) := do
  let earlier :=
    match read History.file with
    | .error _ => []
    | .ok content => History.recalled (Input.ofBytes content).lines
  let lines := input.lines.foldl History.remember earlier
  if lines = earlier then return .ok ()
  try
    IO.FS.writeFile History.file (History.text lines)
    return .ok ()
  catch failure =>
    return .error (fileError failure)

/-- A run reads its standard input only for a prompt. -/
def hasPrompt (arguments : List String) : Bool :=
  match Options.ofArguments arguments with
  | .error _ => false
  | .ok options => !options.has .help && !options.has .keywords && options.files.isEmpty

/-- The paths that a run reads. -/
def readPaths (arguments : List String) : List String :=
  match Options.ofArguments arguments with
  | .error _ => []
  | .ok options => History.file :: options.files

/-- Shows one emission. -/
def perform (logging : Log.Logging) : Emission → IO Unit
  | .out text => IO.print text
  | emission => IO.eprint (logging.errText emission)

end LoxLexer.CommandLine

open LoxLexer LoxLexer.CommandLine in
def main (arguments : List String) : IO UInt32 := do
  let terminal ← (← IO.getStderr).isTty
  let logging := Log.Logging.init {} (← IO.getEnv "RUST_LOG") terminal
  let contents ← (readPaths arguments).mapM fun path => return (path, ← readFile path)
  let read (path : String) : Except FileError ByteArray :=
    (contents.lookup path).getD (.error (.system .noSuchFile))
  let prompted := hasPrompt arguments
  let bytes ← if prompted then readRest (← IO.getStdin) .empty else pure .empty
  let input := Input.ofBytes bytes
  let saved ← if prompted then saveHistory read input else pure (.ok ())
  let outcome := run arguments read input saved
  outcome.emissions.forM (perform logging)
  return outcome.status.toUInt32
