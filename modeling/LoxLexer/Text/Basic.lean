/-! # Texts

How a text is laid out and read: filled up to a width, put together from the words of a name,
written with the structure of a value, and trimmed of its white space. -/

namespace LoxLexer.Text

/-- The text filled up on the right with spaces to a width; a longer text stays as it is. -/
def column (width : Nat) (text : String) : String :=
  text ++ String.ofList (List.replicate (width - text.length) ' ')

/-! ## Names made of words -/

/-- The word with a capital at its start. -/
def capitalized (word : String) : String :=
  match word.toList with
  | [] => ""
  | first :: rest => String.ofList (first.toUpper :: rest)

/-- The words run together, a capital at the start of each. -/
def upperCamel (words : List String) : String :=
  String.join (words.map capitalized)

/-! ## Values with their structure -/

/-- A name followed by its named fields between braces. -/
def record (name : String) (fields : List (String × String)) : String :=
  let written := fields.map fun field => field.1 ++ ": " ++ field.2
  name ++ " \x7b " ++ ", ".intercalate written ++ " \x7d"

/-- A name applied to one value. -/
def applied (name : String) (argument : String) : String :=
  name ++ "(" ++ argument ++ ")"

/-- A value that may be absent, given how a value that is there is written. -/
def optional {α : Type} (write : α → String) : Option α → String
  | none => "None"
  | some value => applied "Some" (write value)

/-! ## White space -/

/-- A character with the Unicode property White_Space. -/
def isWhiteSpace (c : Char) : Bool :=
  ('\t' ≤ c && c ≤ '\r') || c == ' ' || c == '\u0085' || c == '\u00a0' || c == '\u1680' ||
    ('\u2000' ≤ c && c ≤ '\u200a') || c == '\u2028' || c == '\u2029' || c == '\u202f' ||
    c == '\u205f' || c == '\u3000'

/-- The text without the white space at its two ends. -/
def trim (cs : List Char) : List Char :=
  ((cs.dropWhile isWhiteSpace).reverse.dropWhile isWhiteSpace).reverse

end LoxLexer.Text
