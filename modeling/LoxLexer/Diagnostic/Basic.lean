import LoxLexer.Diagnostic.FileError

/-! # Diagnostics

A diagnostic is a fault with the line and the file it belongs to, as far as they are known. -/

namespace LoxLexer

/-- What is wrong. -/
inductive Fault where
  /-- A character that begins nothing in Lox. -/
  | unexpectedCharacter (character : Char)
  /-- A string without a closing quotation mark. -/
  | unterminatedString
  /-- A source that could not be read. -/
  | unreadable (error : FileError)
  deriving DecidableEq, Repr

namespace Fault

/-- The fault in words. -/
def message : Fault → String
  | unexpectedCharacter character =>
    "Unexpected '" ++ Text.escapeChar character ++ "' character."
  | unterminatedString => "Unterminated string."
  | unreadable error => error.message

/-- The fault with its parts named. -/
def described : Fault → String
  | unexpectedCharacter character =>
    Text.record "UnexpectedCharacter" [("character", Text.quoteChar character)]
  | unterminatedString => "UnterminatedString"
  | unreadable error => Text.applied "IoError" error.described

/-- A fault of the source's text and not of reading it. -/
def isLexical : Fault → Bool
  | unreadable _ => false
  | _ => true

end Fault

/-- A fault with its place. -/
structure Diagnostic where
  fault : Fault
  line : Option Nat := none
  file : Option String := none
  deriving DecidableEq, Repr

namespace Diagnostic

/-- The diagnostic placed on a line. -/
def onLine (diagnostic : Diagnostic) (line : Nat) : Diagnostic :=
  { diagnostic with line := some line }

/-- The diagnostic placed in a file. -/
def inFile (diagnostic : Diagnostic) (file : String) : Diagnostic :=
  { diagnostic with file := some file }

/-- One line of text: the line number in brackets, the fault, the file. -/
def text (diagnostic : Diagnostic) : String :=
  let line := diagnostic.line.elim "" fun line => "[line " ++ toString line ++ "] "
  let file := diagnostic.file.elim "" fun file => " in " ++ file
  line ++ "Error: " ++ diagnostic.fault.message ++ file

/-- The diagnostic with its parts named. -/
def described (diagnostic : Diagnostic) : String :=
  Text.record "LoxError"
    [("kind", diagnostic.fault.described),
     ("line", Text.optional toString diagnostic.line),
     ("file", Text.optional Text.quote diagnostic.file)]

def isLexical (diagnostic : Diagnostic) : Bool :=
  diagnostic.fault.isLexical

/-- The error that lies behind a diagnostic, in words. -/
def cause (diagnostic : Diagnostic) : Option String :=
  match diagnostic.fault with
  | .unreadable error => some error.message
  | _ => none

end Diagnostic

end LoxLexer
