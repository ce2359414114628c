import LoxLexer.CommandLine.Options
import LoxLexer.CommandLine.Prompt
import LoxLexer.Log.Logger

/-! # The program

What a run of the program shows, and the status it ends with. Help goes before the keywords, the
keywords before the prompt, and files are scanned one by one, each whatever the others were. -/

namespace LoxLexer.CommandLine

/-- What a run shows and the status it ends with. -/
structure Outcome where
  status : Nat := 0
  emissions : List Emission := []
  deriving DecidableEq, Repr

namespace Outcome

/-- One outcome and then another; the later status counts unless it is zero. -/
def andThen (first second : Outcome) : Outcome where
  status := if second.status = 0 then first.status else second.status
  emissions := first.emissions ++ second.emissions

end Outcome

/-- The status for a command line that is wrong. -/
def usageStatus : Nat := 2

/-- The status for a source with something wrong in it. -/
def dataStatus : Nat := 65

/-- The status for a source that cannot be read. -/
def inputStatus : Nat := 66

/-- Scanning one file. An unreadable file is logged with all its parts and reported in words. -/
def scanFile (quiet : Bool) (read : FileReader) (path : String) : Outcome :=
  let source := readSource read path
  match source.1 with
  | .error diagnostic =>
    let logged := Log.Record.ofModule .error programPath diagnostic.described
    { status := inputStatus
      emissions := source.2 ++ [.log logged, .errLine diagnostic.text] }
  | .ok text =>
    let scan := scanWith Reporter.sink { file := some path } text
    { status := if scan.sink.hadError then dataStatus else 0
      emissions := source.2 ++ scan.emissions ++ listing quiet scan.tokens }

/-- Scanning files in order. -/
def scanFiles (quiet : Bool) (read : FileReader) (paths : List String) : Outcome :=
  (paths.map (scanFile quiet read)).foldl Outcome.andThen {}

/-- The keywords with the kinds they scan to. -/
def keywordListing : List Emission :=
  Keyword.table.map fun row =>
    .outLine (Text.column 8 row.1 ++ (TokenKind.keyword row.2).name)

/-- A run with options that have been understood. -/
def runOptions (options : Options) (read : FileReader) (input : Input)
    (saved : Except FileError Unit) : Outcome :=
  if options.has .help then { emissions := usage.map .errLine }
  else if options.has .keywords then { emissions := keywordListing }
  else
    match options.files with
    | [] => { emissions := prompt (options.has .quiet) read input saved }
    | paths => scanFiles (options.has .quiet) read paths

/-- A run of the program. It depends on its arguments, on the files and the input that it reads, and
on what comes of saving the history. -/
def run (arguments : List String) (read : FileReader) (input : Input)
    (saved : Except FileError Unit := Prompt.saving read input) : Outcome :=
  match Options.ofArguments arguments with
  | .error error =>
    { status := usageStatus, emissions := [.errLine ("main: " ++ error.message)] }
  | .ok options => runOptions options read input saved

/-- The standard output of a run. -/
def Outcome.outText (outcome : Outcome) : String :=
  String.join (outcome.emissions.map Emission.outText)

/-- The standard error of a run, with the log lines that the logging prints. -/
def Outcome.errText (outcome : Outcome) (logging : Log.Logging) : String :=
  String.join (outcome.emissions.map logging.errText)

end LoxLexer.CommandLine
