import LoxLexer.Text.Basic

/-! # Options

The command line: options without arguments, long or short, and files, in any order. Short options
may be joined. A lone dash is a file, and after two dashes everything is. -/

namespace LoxLexer.CommandLine

/-- An option that is given or not. -/
inductive Switch where
  | help
  | quiet
  | keywords
  deriving DecidableEq, Repr

namespace Switch

/-- The long name, written after two dashes. -/
def long : Switch → String
  | help => "help"
  | quiet => "quiet"
  | keywords => "keywords"

/-- The short name, written after one dash. -/
def short : Switch → Char
  | help => 'h'
  | quiet => 'q'
  | keywords => 'k'

/-- What the option does. -/
def purpose : Switch → String
  | help => "print help message"
  | quiet => "only report errors, don't print tokens"
  | keywords => "print the reserved words and exit"

def all : List Switch :=
  [help, quiet, keywords]

end Switch

/-- What is wrong with a command line. -/
inductive UsageError where
  | unknownLong (name : String)
  | unknownShort (name : Char)
  | unexpectedArgument (switch : Switch)
  deriving DecidableEq, Repr

namespace UsageError

/-- The error in words. -/
def message : UsageError → String
  | unknownLong name => "unrecognized option `--" ++ name ++ "`"
  | unknownShort name => "unrecognized option `-" ++ name.toString ++ "`"
  | unexpectedArgument switch => "option `--" ++ switch.long ++ "` does not accept an argument"

end UsageError

/-- A command line that has been understood. -/
structure Options where
  switches : List Switch := []
  files : List String := []
  deriving DecidableEq, Repr

namespace Options

def has (options : Options) (switch : Switch) : Bool :=
  switch ∈ options.switches

def turnOn (options : Options) (switch : Switch) : Options :=
  { options with switches := switch :: options.switches }

def addFiles (options : Options) (files : List String) : Options :=
  { options with files := options.files ++ files }

/-- A long option, given what stands after its two dashes. -/
def readLong (options : Options) (text : List Char) : Except UsageError Options :=
  let name := String.ofList (text.takeWhile (· != '='))
  match Switch.all.find? fun switch => switch.long == name with
  | none => .error (.unknownLong name)
  | some switch =>
    if '=' ∈ text then .error (.unexpectedArgument switch) else .ok (options.turnOn switch)

/-- A short option. -/
def readShort (options : Options) (name : Char) : Except UsageError Options :=
  match Switch.all.find? fun switch => switch.short == name with
  | none => .error (.unknownShort name)
  | some switch => .ok (options.turnOn switch)

/-- Reads the arguments one by one and stops at the first that is wrong. -/
def read (options : Options) : List String → Except UsageError Options
  | [] => .ok options
  | argument :: rest =>
    match argument.toList with
    | ['-', '-'] => .ok (options.addFiles rest)
    | '-' :: '-' :: long => do (← options.readLong long).read rest
    | ['-'] => (options.addFiles [argument]).read rest
    | '-' :: shorts => do (← shorts.foldlM readShort options).read rest
    | _ => (options.addFiles [argument]).read rest

/-- The options of a command line. -/
def ofArguments (arguments : List String) : Except UsageError Options :=
  read {} arguments

end Options

/-- A line of the help text: what is described, in a column of its own, and the description. -/
def helpLine (subject description : String) : String :=
  "  " ++ Text.column 16 subject ++ description

/-- The help text. -/
def usage : List String :=
  ["Usage: main [OPTIONS]",
   "",
   "Positional arguments:",
   helpLine "files" "files to scan, starts a prompt if none are given",
   "",
   "Optional arguments:"] ++
  Switch.all.map fun switch =>
    helpLine ("-" ++ switch.short.toString ++ ", --" ++ switch.long) switch.purpose

end LoxLexer.CommandLine
