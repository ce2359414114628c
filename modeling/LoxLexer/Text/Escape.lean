import LoxLexer.Text.Unprintable

/-! # Escaped characters

How a character is written where it must be visible and must not end the quotation it stands in:
five characters have a short form, a chosen set of quotation marks takes a backslash, an
unprintable character is written by its code point, and every other character stands for itself. -/

namespace LoxLexer.Text

/-- The written form of a character inside a quotation that protects `marks`. -/
def escape (marks : List Char) (c : Char) : List Char :=
  if c = '\x00' then ['\\', '0']
  else if c = '\t' then ['\\', 't']
  else if c = '\r' then ['\\', 'r']
  else if c = '\n' then ['\\', 'n']
  else if c = '\\' then ['\\', '\\']
  else if c ∈ marks then ['\\', c]
  else if isUnprintable c then
    ['\\', 'u', '\x7b'] ++ Nat.toDigits 16 c.toNat ++ ['\x7d']
  else [c]

/-- A character written so that it can stand between marks of either kind. -/
def escapeChar (c : Char) : String :=
  String.ofList (escape ['\'', '"'] c)

/-- A character between single marks. -/
def quoteChar (c : Char) : String :=
  String.ofList ('\'' :: escape ['\''] c ++ ['\''])

/-- A text between double marks. -/
def quote (text : String) : String :=
  String.ofList ('"' :: text.toList.flatMap (escape ['"']) ++ ['"'])

end LoxLexer.Text
