import LoxLexer.Diagnostic.FileError

/-! # Directories

A directory with everything below it, as seen by someone who works in it, and how a path is
followed there. What lies outside is known only to consist of directories that hold nothing. -/

namespace LoxLexer

/-- What a directory holds at a place. -/
inductive Entry where
  | file (content : ByteArray)
  | folder

/-- Everything below a directory by the names that lead to it. A folder need not be listed if
something in it is. -/
structure Directory where
  entries : List (List String × Entry)

/-- Where following a path has led. -/
inductive Place where
  /-- At or below the directory, by the names that lead there. -/
  | below (names : List String)
  /-- In some directory outside. -/
  | outside
  deriving DecidableEq, Repr

namespace Directory

/-- What is at a place below the directory. Where something lies further down, there is a folder. -/
def entryAt? (directory : Directory) (names : List String) : Option Entry :=
  match directory.entries.lookup names with
  | some entry => some entry
  | none =>
    if names = [] || directory.entries.any fun entry => names.isPrefixOf entry.1 then some .folder
    else none

/-- The length of the longest name, in bytes. -/
def longestName : Nat := 255

/-- The length from which on paths are refused, in bytes. -/
def refusedPath : Nat := 4096

/-- One name further along a path. Only a folder can be gone on from. An empty name and one dot
stay, two dots go up, and any other name has to exist. -/
def follow (directory : Directory) (place : Place) (name : String) : Except SystemError Place :=
  match place with
  | .outside =>
    if name = "" ∨ name = "." ∨ name = ".." then .ok .outside
    else if longestName < name.utf8ByteSize then .error .nameTooLong
    else .error .noSuchFile
  | .below names =>
    match directory.entryAt? names with
    | none => .error .noSuchFile
    | some (.file _) => .error .notADirectory
    | some .folder =>
      if name = "" ∨ name = "." then .ok (.below names)
      else if name = ".." then .ok (if names = [] then .outside else .below names.dropLast)
      else if longestName < name.utf8ByteSize then .error .nameTooLong
      else if (directory.entryAt? (names ++ [name])).isSome then .ok (.below (names ++ [name]))
      else .error .noSuchFile

/-- The names of a path, which stand between its slashes. -/
def namesOf (path : String) : List String :=
  (path.toList.splitOn '/').map String.ofList

/-- The place a path leads to; a path that begins with a slash begins outside. -/
def resolve (directory : Directory) (path : String) : Except SystemError Place :=
  if path = "" then .error .noSuchFile
  else if refusedPath ≤ path.utf8ByteSize then .error .nameTooLong
  else
    let start := if path.toList.head? = some '/' then Place.outside else .below []
    (namesOf path).foldlM directory.follow start

/-- The content of the file at a place, or why there is none. -/
def contentAt (directory : Directory) (names : List String) : Except FileError ByteArray :=
  match directory.entryAt? names with
  | some (.file content) => .ok content
  | some .folder => .error (.system .isADirectory)
  | none => .error (.system .noSuchFile)

/-- The content of the file that a path leads to. -/
def read (directory : Directory) (path : String) : Except FileError ByteArray :=
  if '\x00' ∈ path.toList then .error .nulInName
  else
    match directory.resolve path with
    | .error error => .error (.system error)
    | .ok .outside => .error (.system .isADirectory)
    | .ok (.below names) => directory.contentAt names

end Directory

end LoxLexer
