/-! # Binary64 numbers

The IEEE 754 double as its 64 bits. A magnitude is a whole number of units, a unit being the
smallest positive double, `2 ^ -1074`, so every finite double is an exact natural number of units
with a sign. -/

namespace LoxLexer

/-- A double: one sign bit, eleven exponent bits, fifty-two bits of fraction. -/
structure Binary64 where
  bits : UInt64
  deriving DecidableEq, Repr, Inhabited

namespace Binary64

/-- How many fractions share one exponent. -/
def fractions : Nat :=
  Nat.pow 2 52

/-- The weight of the sign bit, which stands above the magnitude bits. -/
def signWeight : Nat :=
  Nat.pow 2 63

/-- The units in the number one. -/
def unitsPerOne : Nat :=
  Nat.pow 2 1074

/-- The magnitude bits of infinity: every exponent bit set and the fraction zero. -/
def infinityBits : Nat :=
  2047 * fractions

/-- The bits below the sign bit. -/
def magnitude (x : Binary64) : Nat :=
  x.bits.toNat % signWeight

/-- The sign bit. -/
def isNegative (x : Binary64) : Bool :=
  signWeight ≤ x.bits.toNat

def isNaN (x : Binary64) : Bool :=
  infinityBits < x.magnitude

def isInfinite (x : Binary64) : Bool :=
  x.magnitude == infinityBits

/-- The double without sign that has these magnitude bits; beyond infinity there is infinity. -/
def ofMagnitude (bits : Nat) : Binary64 :=
  ⟨UInt64.ofNat (min bits infinityBits)⟩

/-- The units in a finite magnitude with these bits. An exponent field of zero counts the
fraction itself; any other field has a leading one before the fraction. -/
def unitsOfBits (bits : Nat) : Nat :=
  if bits < fractions then bits
  else (fractions + bits % fractions) * Nat.pow 2 (bits / fractions - 1)

/-- The magnitude of a finite double, in units. -/
def units (x : Binary64) : Nat :=
  unitsOfBits x.magnitude

/-- Equality as numbers: a NaN equals nothing, and the two zeros are equal. -/
def equals (x y : Binary64) : Bool :=
  !x.isNaN && !y.isNaN && (x.bits == y.bits || (x.magnitude == 0 && y.magnitude == 0))

end Binary64

end LoxLexer
