import LoxLexer.Binary64.Printed
import LoxLexer.Text.Basic
import LoxLexer.Text.Escape
import LoxLexer.Token.Kind

/-! # Tokens

A token is a kind with the text it stands for, the value of that text if it has one, and the line
it begins on. -/

namespace LoxLexer

/-- The value that a token's text denotes. -/
inductive Literal where
  | string (value : String)
  | number (value : Binary64)
  deriving DecidableEq, Repr

namespace Literal

/-- A string as it is, a number by its shortest digits. -/
def text : Literal → String
  | string value => value
  | number value => value.printed

/-- The value with its form named. -/
def described : Literal → String
  | string value => Text.applied "String" (Text.quote value)
  | number value => Text.applied "Number" value.printed

/-- Equality of values; numbers are equal as numbers, not as bits. -/
def equals : Literal → Literal → Bool
  | string a, string b => a == b
  | number a, number b => a.equals b
  | _, _ => false

/-- Equality of values that may be absent. -/
def equalOptions : Option Literal → Option Literal → Bool
  | none, none => true
  | some a, some b => a.equals b
  | _, _ => false

end Literal

/-- One token of a source. -/
structure Token where
  kind : TokenKind
  lexeme : String
  literal : Option Literal
  line : Nat
  deriving DecidableEq, Repr

namespace Token

/-- The token that ends every list of tokens. -/
def eof (line : Nat) : Token where
  kind := .eof
  lexeme := ""
  literal := none
  line := line

def isEof (token : Token) : Bool :=
  token.kind == .eof

/-- The listed form: kind, lexeme and value with a space between. -/
def text (token : Token) : String :=
  let value := token.literal.elim "null" Literal.text
  token.kind.name ++ " " ++ token.lexeme ++ " " ++ value

/-- The token with its parts named. -/
def described (token : Token) : String :=
  Text.record "Token"
    [("kind", token.kind.title),
     ("lexeme", Text.quote token.lexeme),
     ("literal", Text.optional Literal.described token.literal),
     ("line", toString token.line)]

/-- Equality of tokens, numbers being compared as numbers. -/
def equals (a b : Token) : Bool :=
  a.kind == b.kind && a.lexeme == b.lexeme && Literal.equalOptions a.literal b.literal &&
    a.line == b.line

end Token

end LoxLexer
