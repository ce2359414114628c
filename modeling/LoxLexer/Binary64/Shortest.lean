import LoxLexer.Binary64.Rounding

/-! # The shortest decimal of a double

The decimal with the fewest digits that rounds to a given finite double and, among those, the
nearest to it. A double is a whole number of `10 ^ -1074`, because its unit is
`5 ^ 1074 * 10 ^ -1074`. On each grid of decimals, from the coarsest to the finest, only the two
neighbours of the double have to be tried: rounding is monotone, so if any point of the grid rounds
to the double, one of the neighbours does. -/

namespace LoxLexer.Binary64

/-- The magnitude of a finite double in units of `10 ^ -1074`. -/
def decimalUnits (x : Binary64) : Nat :=
  x.units * Nat.pow 5 1074

/-- The point `count * 10 ^ (place - 1074)` of the grid with the given place. -/
def gridPoint (place count : Nat) : Decimal :=
  ⟨count, (place : Int) - 1074⟩

/-- The decimal rounds to the magnitude of the double. -/
def isReadFrom (x : Binary64) (d : Decimal) : Bool :=
  (nearest d).magnitude == x.magnitude

/-- The neighbour on one grid that rounds to the double, if there is one: the nearer of two, and
the upper of two that are equally near. -/
def shortestAt? (x : Binary64) (place : Nat) : Option Decimal :=
  let step := Nat.pow 10 place
  let below := x.decimalUnits / step
  let lower := gridPoint place below
  let upper := gridPoint place (below + 1)
  if x.isReadFrom lower then
    if x.isReadFrom upper && step ≤ 2 * (x.decimalUnits % step) then some upper else some lower
  else if x.isReadFrom upper then some upper
  else none

/-- The first hit on the grids from `place` down; the grid of place zero contains the double. -/
def shortestFrom (x : Binary64) : Nat → Decimal
  | 0 => gridPoint 0 x.decimalUnits
  | place + 1 => (x.shortestAt? (place + 1)).getD (x.shortestFrom place)

/-- The shortest decimal of the magnitude of a finite double. -/
def shortest (x : Binary64) : Decimal :=
  if x.magnitude = 0 then ⟨0, 0⟩
  else x.shortestFrom (Nat.toDigits 10 x.decimalUnits).length

end LoxLexer.Binary64
