import LoxLexer.Scan.Basic

/-! # Source files

Reading a file as the text of a source. -/

namespace LoxLexer

/-- A way to read the content of a file by its path. -/
abbrev FileReader := String → Except FileError ByteArray

/-- The text of a file; its content has to be UTF-8. -/
def readText (read : FileReader) (path : String) : Except FileError String :=
  match read path with
  | .error error => .error error
  | .ok content =>
    match String.fromUTF8? content with
    | none => .error .notText
    | some text => .ok text

/-- Reads a source, giving its text or a diagnostic placed in the file, beside what was shown. -/
def readSource (read : FileReader) (path : String) :
    Except Diagnostic String × List Emission :=
  let started := Log.Record.ofModule .info libraryPath ("read " ++ path)
  let result := (readText read path).mapError fun error =>
    ({ fault := .unreadable error, file := some path } : Diagnostic)
  (result, [.log started])

end LoxLexer
