import LoxLexer.Source.Numeral
import LoxLexer.Token.Basic

/-! # Lexemes

A lexeme is a piece of source that makes a token. Its text, and with it the token's kind and value,
do not depend on where it stands. -/

namespace LoxLexer

/-- A letter of a word: an ASCII letter or the underscore. -/
def isLetter (c : Char) : Bool :=
  c.isAlpha || c == '_'

/-- A character that can follow the first letter of a word. -/
def isWordCharacter (c : Char) : Bool :=
  isLetter c || c.isDigit

/-- A piece of source that makes a token. -/
inductive Lexeme where
  | punctuator (mark : Punctuator)
  | word (letters : List Char)
  | number (numeral : Numeral)
  /-- A string with the text between its quotation marks. -/
  | string (body : List Char)
  deriving DecidableEq, Repr

namespace Lexeme

/-- The lexeme as it is written. -/
def text : Lexeme → List Char
  | punctuator mark => mark.text
  | word letters => letters
  | number numeral => numeral.text
  | string body => '"' :: body ++ ['"']

/-- The kind of token; a word is a keyword if it is spelled as one. -/
def kind : Lexeme → TokenKind
  | punctuator mark => .punctuator mark
  | word letters => (Keyword.ofSpelling? (String.ofList letters)).elim .identifier .keyword
  | number _ => .number
  | string _ => .string

/-- The value of the text; marks and words have none. -/
def literal : Lexeme → Option Literal
  | punctuator _ => none
  | word _ => none
  | number numeral => some (.number numeral.value)
  | string body => some (.string (String.ofList body))

/-- The token of the lexeme on a line. -/
def token (lexeme : Lexeme) (line : Nat) : Token where
  kind := lexeme.kind
  lexeme := String.ofList lexeme.text
  literal := lexeme.literal
  line := line

end Lexeme

end LoxLexer
