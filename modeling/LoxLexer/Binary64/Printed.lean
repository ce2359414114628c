import LoxLexer.Binary64.Shortest

/-! # Printed doubles

A finite double is printed by its shortest decimal, in plain form where it is zero or at least
`10 ^ -4` and below `10 ^ 16`, and with an exponent otherwise. -/

namespace LoxLexer

namespace Decimal

/-- Digits around a decimal point, at least one on either side. -/
def plain (d : Decimal) : List Char :=
  let digits := Nat.toDigits 10 d.digits
  if 0 ≤ d.exponent then
    digits ++ List.replicate d.exponent.toNat '0' ++ ['.', '0']
  else
    let places := (-d.exponent).toNat
    let padded := List.replicate (places + 1 - digits.length) '0' ++ digits
    let whole := padded.length - places
    padded.take whole ++ '.' :: padded.drop whole

/-- One digit, the others after a point if there are any, and the power of ten. -/
def scientific (d : Decimal) : List Char :=
  let digits := Nat.toDigits 10 d.digits
  let fraction := digits.drop 1
  let power := d.exponent + fraction.length
  let shown := if fraction.isEmpty then digits else digits.take 1 ++ '.' :: fraction
  shown ++ 'e' :: (toString power).toList

end Decimal

namespace Binary64

/-- Plain form is for zero and for magnitudes from `10 ^ -4` to below `10 ^ 16`. -/
def isPlain (x : Binary64) : Bool :=
  x.magnitude == 0 || (Nat.pow 10 1070 ≤ x.decimalUnits && x.decimalUnits < Nat.pow 10 1090)

/-- The printed magnitude of a finite double. -/
def printedMagnitude (x : Binary64) : List Char :=
  if x.isPlain then x.shortest.plain else x.shortest.scientific

/-- The printed double. A NaN is printed without its sign. -/
def printed (x : Binary64) : String :=
  if x.isNaN then "NaN"
  else
    let sign := if x.isNegative then ['-'] else []
    let magnitude := if x.isInfinite then "inf".toList else x.printedMagnitude
    String.ofList (sign ++ magnitude)

end Binary64

end LoxLexer
