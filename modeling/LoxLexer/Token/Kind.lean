import LoxLexer.Text.Basic
import LoxLexer.Token.Keyword
import LoxLexer.Token.Punctuator

/-! # Token kinds

What a token can be: a mark, a keyword, one of three kinds with a text of their own, or the end of
the source. -/

namespace LoxLexer

/-- The kind of a token. -/
inductive TokenKind where
  | punctuator (mark : Punctuator)
  | keyword (word : Keyword)
  | identifier
  | string
  | number
  | eof
  deriving DecidableEq, Repr

namespace TokenKind

/-- The words of the kind's title. -/
def words : TokenKind → List String
  | punctuator mark => mark.words
  | keyword word => [word.spelling]
  | identifier => ["identifier"]
  | string => ["string"]
  | number => ["number"]
  | eof => ["eof"]

/-- The name in listings. -/
def name : TokenKind → String
  | punctuator .leftParen => "LEFT_PAREN"
  | punctuator .rightParen => "RIGHT_PAREN"
  | punctuator .leftBrace => "LEFT_BRACE"
  | punctuator .rightBrace => "RIGHT_BRACE"
  | punctuator .comma => "COMMA"
  | punctuator .dot => "DOT"
  | punctuator .minus => "MINUS"
  | punctuator .plus => "PLUS"
  | punctuator .semicolon => "SEMICOLON"
  | punctuator .slash => "SLASH"
  | punctuator .star => "STAR"
  | punctuator .bang => "BANG"
  | punctuator .bangEqual => "BANG_EQUAL"
  | punctuator .equal => "EQUAL"
  | punctuator .equalEqual => "EQUAL_EQUAL"
  | punctuator .greater => "GREATER"
  | punctuator .greaterEqual => "GREATER_EQUAL"
  | punctuator .less => "LESS"
  | punctuator .lessEqual => "LESS_EQUAL"
  | identifier => "IDENTIFIER"
  | string => "STRING"
  | number => "NUMBER"
  | keyword .and_ => "AND"
  | keyword .class_ => "CLASS"
  | keyword .else_ => "ELSE"
  | keyword .false_ => "FALSE"
  | keyword .for_ => "FOR"
  | keyword .fun_ => "FUN"
  | keyword .if_ => "IF"
  | keyword .nil_ => "NIL"
  | keyword .or_ => "OR"
  | keyword .print_ => "PRINT"
  | keyword .return_ => "RETURN"
  | keyword .super_ => "SUPER"
  | keyword .this_ => "THIS"
  | keyword .true_ => "TRUE"
  | keyword .var_ => "VAR"
  | keyword .while_ => "WHILE"
  | eof => "EOF"

/-- The name in descriptions, such as `LeftParen`. -/
def title (kind : TokenKind) : String :=
  Text.upperCamel kind.words

/-- A kind of reserved words. -/
def isKeyword : TokenKind → Bool
  | keyword .and_ | keyword .class_ | keyword .else_ | keyword .false_ | keyword .fun_
  | keyword .for_ | keyword .if_ | keyword .nil_ | keyword .or_ | keyword .print_
  | keyword .return_ | keyword .super_ | keyword .this_ | keyword .true_ | keyword .var_
  | keyword .while_ => true
  | _ => false

/-- Every kind. -/
def all : List TokenKind :=
  Punctuator.all.map punctuator ++ [identifier, string, number] ++ Keyword.all.map keyword ++ [eof]

theorem mem_all (kind : TokenKind) : kind ∈ all := by
  cases kind with
  | punctuator mark => simp [all, Punctuator.mem_all]
  | keyword word => simp [all, Keyword.mem_all]
  | _ => decide

/-- The kind with this name. -/
def ofName? (name : String) : Option TokenKind :=
  all.find? fun kind => kind.name == name

end TokenKind

end LoxLexer
