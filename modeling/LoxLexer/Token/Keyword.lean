/-! # Keywords

The sixteen words of Lox that are not identifiers. A word is a keyword only if it is spelled
exactly so, in lower case. -/

namespace LoxLexer

/-- A reserved word of Lox. -/
inductive Keyword where
  | and_
  | class_
  | else_
  | false_
  | for_
  | fun_
  | if_
  | nil_
  | or_
  | print_
  | return_
  | super_
  | this_
  | true_
  | var_
  | while_
  deriving DecidableEq, Repr

namespace Keyword

/-- The spelling in a source. -/
def spelling : Keyword → String
  | and_ => "and"
  | class_ => "class"
  | else_ => "else"
  | false_ => "false"
  | for_ => "for"
  | fun_ => "fun"
  | if_ => "if"
  | nil_ => "nil"
  | or_ => "or"
  | print_ => "print"
  | return_ => "return"
  | super_ => "super"
  | this_ => "this"
  | true_ => "true"
  | var_ => "var"
  | while_ => "while"

/-- Every keyword, in the alphabetical order of the spellings. -/
def all : List Keyword :=
  [and_, class_, else_, false_, for_, fun_, if_, nil_, or_, print_, return_, super_, this_, true_,
    var_, while_]

theorem mem_all (keyword : Keyword) : keyword ∈ all := by
  cases keyword <;> decide

/-- The spellings and the keywords they are looked up as. -/
def table : List (String × Keyword) :=
  [("and", and_), ("class", class_), ("else", else_), ("false", false_), ("for", for_),
    ("fun", fun_), ("if", if_), ("nil", nil_), ("or", or_), ("print", print_), ("return", return_),
    ("super", super_), ("this", this_), ("true", true_), ("var", var_), ("while", while_)]

/-- The keyword that a word is looked up as. -/
def ofSpelling? (word : String) : Option Keyword :=
  table.lookup word

end Keyword

end LoxLexer
