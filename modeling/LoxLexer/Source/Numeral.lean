import LoxLexer.Binary64.Rounding

/-! # Numerals

A numeral is digits, or digits around a point. A point that no digit follows is not part of it. -/

namespace LoxLexer

/-- The digits of a numeral before and after its point; without a point there are none after. -/
structure Numeral where
  whole : List Char
  fraction : List Char
  deriving DecidableEq, Repr

namespace Numeral

/-- The numeral as it is written. -/
def text (numeral : Numeral) : List Char :=
  match numeral.fraction with
  | [] => numeral.whole
  | digits => numeral.whole ++ '.' :: digits

/-- The number that a string of digits denotes in base ten. -/
def digitsValue (digits : List Char) : Nat :=
  digits.foldl (fun value digit => 10 * value + (digit.toNat - '0'.toNat)) 0

/-- The exact value of the numeral. -/
def decimal (numeral : Numeral) : Decimal where
  digits := digitsValue (numeral.whole ++ numeral.fraction)
  exponent := -(numeral.fraction.length : Int)

/-- The double nearest to the exact value. -/
def value (numeral : Numeral) : Binary64 :=
  .nearest numeral.decimal

/-- The longest numeral at the start of a text, with what follows it. -/
def split (cs : List Char) : Numeral × List Char :=
  let whole := cs.takeWhile Char.isDigit
  match cs.dropWhile Char.isDigit with
  | '.' :: after =>
    match after.takeWhile Char.isDigit with
    | [] => (⟨whole, []⟩, '.' :: after)
    | fraction => (⟨whole, fraction⟩, after.dropWhile Char.isDigit)
  | after => (⟨whole, []⟩, after)

theorem text_split_append (cs : List Char) : (split cs).1.text ++ (split cs).2 = cs := by
  have whole := List.takeWhile_append_dropWhile (p := Char.isDigit) (l := cs)
  unfold split
  split
  · rename_i after point
    have fraction := List.takeWhile_append_dropWhile (p := Char.isDigit) (l := after)
    split
    · simp [text, ← point]
    · rename_i digits
      simpa [text, digits, fraction, point] using whole
  · simp [text]

theorem text_split_ne_nil {first : Char} {rest : List Char} (digit : first.isDigit) :
    (split (first :: rest)).1.text ≠ [] := by
  have whole_ne_nil : (first :: rest).takeWhile Char.isDigit ≠ [] := by simp [digit]
  unfold split
  split
  · split <;> simp [text, whole_ne_nil]
  · simpa [text] using whole_ne_nil

end Numeral

end LoxLexer
