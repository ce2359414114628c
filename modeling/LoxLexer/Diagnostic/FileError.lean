import LoxLexer.Text.Basic
import LoxLexer.Text.Escape

/-! # File errors

Why a file could not be read: the operating system refused, its content is not text, its name
cannot name a file, or something said so in words of its own. -/

namespace LoxLexer

/-- What sort of failure a file error is. -/
inductive FailureClass where
  | notFound
  | permissionDenied
  | inputOutputError
  | alreadyExists
  | notADirectory
  | isADirectory
  | invalidInput
  | invalidData
  | invalidFilename
  | tooManyOpenFiles
  | storageFull
  | unexpectedEof
  | other
  deriving DecidableEq, Repr

namespace FailureClass

/-- The words of the class's name. -/
def words : FailureClass → List String
  | notFound => ["not", "found"]
  | permissionDenied => ["permission", "denied"]
  | inputOutputError => ["input", "output", "error"]
  | alreadyExists => ["already", "exists"]
  | notADirectory => ["not", "a", "directory"]
  | isADirectory => ["is", "a", "directory"]
  | invalidInput => ["invalid", "input"]
  | invalidData => ["invalid", "data"]
  | invalidFilename => ["invalid", "filename"]
  | tooManyOpenFiles => ["too", "many", "open", "files"]
  | storageFull => ["storage", "full"]
  | unexpectedEof => ["unexpected", "eof"]
  | other => ["other"]

/-- The name in descriptions, such as `NotFound`. -/
def title (failure : FailureClass) : String :=
  Text.upperCamel failure.words

end FailureClass

/-- A refusal of the operating system. -/
inductive SystemError where
  | notPermitted
  | noSuchFile
  | inputOutput
  | accessDenied
  | fileExists
  | notADirectory
  | isADirectory
  | invalidArgument
  | tooManyOpenFiles
  | noSpaceLeft
  | nameTooLong
  deriving DecidableEq, Repr

namespace SystemError

/-- The number the operating system gives the refusal. -/
def code : SystemError → Nat
  | notPermitted => 1
  | noSuchFile => 2
  | inputOutput => 5
  | accessDenied => 13
  | fileExists => 17
  | notADirectory => 20
  | isADirectory => 21
  | invalidArgument => 22
  | tooManyOpenFiles => 24
  | noSpaceLeft => 28
  | nameTooLong => 36

/-- The class of the refusal. -/
def failureClass : SystemError → FailureClass
  | notPermitted => .permissionDenied
  | noSuchFile => .notFound
  | inputOutput => .inputOutputError
  | accessDenied => .permissionDenied
  | fileExists => .alreadyExists
  | notADirectory => .notADirectory
  | isADirectory => .isADirectory
  | invalidArgument => .invalidInput
  | tooManyOpenFiles => .tooManyOpenFiles
  | noSpaceLeft => .storageFull
  | nameTooLong => .invalidFilename

/-- The refusal in words. -/
def explanation : SystemError → String
  | notPermitted => "Operation not permitted"
  | noSuchFile => "No such file or directory"
  | inputOutput => "Input/output error"
  | accessDenied => "Permission denied"
  | fileExists => "File exists"
  | notADirectory => "Not a directory"
  | isADirectory => "Is a directory"
  | invalidArgument => "Invalid argument"
  | tooManyOpenFiles => "Too many open files"
  | noSpaceLeft => "No space left on device"
  | nameTooLong => "File name too long"

/-- Every refusal, in the order of the codes. -/
def all : List SystemError :=
  [notPermitted, noSuchFile, inputOutput, accessDenied, fileExists, notADirectory, isADirectory,
    invalidArgument, tooManyOpenFiles, noSpaceLeft, nameTooLong]

/-- The refusal with this code. -/
def ofCode? (code : Nat) : Option SystemError :=
  all.find? fun error => error.code == code

end SystemError

/-- Why a file could not be read. -/
inductive FileError where
  /-- The operating system refused. -/
  | system (error : SystemError)
  /-- A failure stated in words. -/
  | stated (failure : FailureClass) (message : String)
  /-- The content is not UTF-8. -/
  | notText
  /-- The name holds a NUL, which no file name can. -/
  | nulInName
  deriving DecidableEq, Repr

namespace FileError

/-- The error in words; a refusal of the operating system shows its code. -/
def message : FileError → String
  | system error => error.explanation ++ " (os error " ++ toString error.code ++ ")"
  | stated _ message => message
  | notText => "stream did not contain valid UTF-8"
  | nulInName => "file name contained an unexpected NUL byte"

/-- The error with its parts named. -/
def described (error : FileError) : String :=
  match error with
  | system cause =>
    Text.record "Os"
      [("code", toString cause.code),
       ("kind", cause.failureClass.title),
       ("message", Text.quote cause.explanation)]
  | stated failure message =>
    Text.record "Custom" [("kind", failure.title), ("error", Text.quote message)]
  | notText => known .invalidData
  | nulInName => known .invalidInput
where
  /-- An error whose words are fixed. -/
  known (failure : FailureClass) : String :=
    Text.record "Error" [("kind", failure.title), ("message", Text.quote error.message)]

end FileError

end LoxLexer
