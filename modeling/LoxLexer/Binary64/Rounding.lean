import LoxLexer.Binary64.Basic

/-! # Rounding to binary64

The double nearest to a non-negative ratio or decimal, a tie going to the even fraction. The ratio
is scaled to units and its quotient cut to fifty-three bits; what is cut off decides the direction.
A ratio below half a unit gives zero, and one that rounds past the largest double gives
infinity. -/

namespace LoxLexer

/-- The natural number nearest to `num / den`, a tie going to the even one. -/
def roundHalfEven (num den : Nat) : Nat :=
  let quotient := num / den
  let twice := 2 * (num % den)
  if twice < den then quotient
  else if den < twice then quotient + 1
  else quotient + quotient % 2

/-- A decimal number, `digits * 10 ^ exponent`. -/
structure Decimal where
  digits : Nat
  exponent : Int
  deriving DecidableEq, Repr

namespace Decimal

/-- The numerator of the decimal over `denominator`. -/
def numerator (d : Decimal) : Nat :=
  d.digits * Nat.pow 10 d.exponent.toNat

/-- The power of ten below the fraction bar. -/
def denominator (d : Decimal) : Nat :=
  Nat.pow 10 (-d.exponent).toNat

end Decimal

namespace Binary64

/-- How many low bits of a count of units do not fit beside fifty-three significant bits. -/
def surplusBits (units : Nat) : Nat :=
  Nat.log2 units - 52

/-- The double nearest to `num / den`. The magnitude bits of a rounded significand are its own
value plus one exponent step for every bit that was cut, also where rounding carries into the next
exponent. -/
def nearestRatio (num den : Nat) : Binary64 :=
  let scaled := num * unitsPerOne
  let surplus := surplusBits (scaled / den)
  ofMagnitude (surplus * fractions + roundHalfEven scaled (den * Nat.pow 2 surplus))

/-- The double nearest to a decimal. -/
def nearest (d : Decimal) : Binary64 :=
  nearestRatio d.numerator d.denominator

end Binary64

end LoxLexer
