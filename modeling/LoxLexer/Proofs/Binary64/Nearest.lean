import Mathlib.Algebra.Order.Field.Power
import LoxLexer.Proofs.Binary64.Rounding

/-! # The nearest double

What correct rounding of a number is (`Binary64.IsRounded`): a finite double at the least distance,
the even significand deciding between two at the same distance, and infinity from half a step beyond
the largest double on. The double nearest to a decimal is that of its value and no other
(`Binary64.isRounded_iff`), and rounding keeps the order of numbers (`Binary64.IsRounded.mono`). -/

namespace LoxLexer

namespace Decimal

/-- The number that the decimal stands for. -/
def value (d : Decimal) : ℚ :=
  d.digits * 10 ^ d.exponent

theorem value_nonneg (d : Decimal) : 0 ≤ d.value := by
  unfold value
  positivity

theorem denominator_pos (d : Decimal) : 0 < d.denominator :=
  Nat.pow_pos (Nat.succ_pos 9)

/-- The two numbers that a decimal is rounded from have its value as their ratio. -/
theorem numerator_div_denominator (d : Decimal) :
    (d.numerator : ℚ) / d.denominator = d.value := by
  obtain ⟨digits, exponent⟩ := d
  unfold numerator denominator value
  rw [Nat.pow_eq, Nat.pow_eq]
  push_cast
  rcases Int.le_total 0 exponent with whole | fractional
  · obtain ⟨power, rfl⟩ := Int.eq_ofNat_of_zero_le whole
    simp
  · obtain ⟨places, rfl⟩ := Int.exists_eq_neg_ofNat fractional
    simp [div_eq_mul_inv]

end Decimal

namespace Binary64
variable {x y : Binary64} {bits other : Nat} {number greater : ℚ}

/-! ## The number of a double -/

/-- The number with these magnitude bits. -/
def amount (bits : Nat) : ℚ :=
  unitsOfBits bits / unitsPerOne

/-- The double is neither infinite nor a NaN. -/
def IsFinite (x : Binary64) : Prop :=
  x.magnitude < infinityBits

/-- The number that a finite double stands for. -/
def value (x : Binary64) : ℚ :=
  (if x.isNegative then -1 else 1) * amount x.magnitude

/-- The significand of a finite double, with its leading bit if it has one. -/
def significand (x : Binary64) : Nat :=
  if x.magnitude < fractions then x.magnitude else fractions + x.magnitude % fractions

def infinity : Binary64 :=
  ofMagnitude infinityBits

/-- The order of numbers with everything at most infinity; nothing is said of NaNs. -/
def IsAtMost (x y : Binary64) : Prop :=
  y = infinity ∨ x.IsFinite ∧ y.IsFinite ∧ x.value ≤ y.value

/-- One is two to the power of 1074 units. -/
theorem cast_unitsPerOne : (unitsPerOne : ℚ) = 2 ^ 1074 := by
  unfold unitsPerOne
  generalize 1074 = exponent
  rw [Nat.pow_eq, Nat.cast_pow, Nat.cast_ofNat]

theorem unitsPerOne_pos : (0 : ℚ) < unitsPerOne := by
  rw [cast_unitsPerOne]
  positivity

theorem amount_nonneg (bits : Nat) : 0 ≤ amount bits :=
  div_nonneg (Nat.cast_nonneg _) unitsPerOne_pos.le

theorem amount_zero : amount 0 = 0 := by
  unfold amount
  rw [unitsOfBits_zero, Nat.cast_zero, zero_div]

/-- A greater magnitude is a greater amount. -/
theorem strictMono_amount : StrictMono amount := fun _ _ less =>
  div_lt_div_of_pos_right (Nearest.units_lt less) unitsPerOne_pos

/-- Without a sign the value of a double is the amount of its magnitude. -/
theorem value_of_unsigned (unsigned : x.isNegative = false) : x.value = amount x.magnitude := by
  unfold value
  rw [unsigned, if_neg Bool.false_ne_true, one_mul]

/-- With or without a sign, the distance of a double from zero is the amount of its magnitude. -/
theorem abs_value (x : Binary64) : |x.value| = amount x.magnitude := by
  unfold value
  rw [abs_mul, abs_of_nonneg (amount_nonneg _)]
  split
  · rw [abs_neg, abs_one, one_mul]
  · rw [abs_one, one_mul]

/-- The significand of a double is even if and only if its magnitude is. -/
theorem even_significand : Even x.significand ↔ Even x.magnitude := by
  have parts := Nat.div_add_mod x.magnitude fractions
  have whole : Even (fractions * (x.magnitude / fractions)) := even_fractions.mul_right _
  unfold significand
  split
  · exact Iff.rfl
  · calc Even (fractions + x.magnitude % fractions)
        ↔ Even (x.magnitude % fractions) := Nat.even_add.trans (iff_true_left even_fractions)
      _ ↔ Even (fractions * (x.magnitude / fractions) + x.magnitude % fractions) :=
          (Nat.even_add.trans (iff_true_left whole)).symm
      _ ↔ Even x.magnitude := by rw [parts]

/-! ## Doubles without sign -/

theorem infinityBits_lt : infinityBits < signWeight := by
  decide

/-- The bits of a double made from a magnitude are the magnitude, cut off at infinity. -/
theorem toNat_ofMagnitude (bits : Nat) :
    (ofMagnitude bits).bits.toNat = min bits infinityBits := by
  have small : min bits infinityBits < signWeight :=
    Nat.lt_of_le_of_lt (Nat.min_le_right _ _) infinityBits_lt
  exact UInt64.toNat_ofNat_of_lt' (small.trans (by decide))

/-- A double made from a magnitude has this magnitude, cut off at infinity. -/
theorem magnitude_ofMagnitude (bits : Nat) :
    (ofMagnitude bits).magnitude = min bits infinityBits := by
  unfold magnitude
  rw [toNat_ofMagnitude]
  exact Nat.mod_eq_of_lt (Nat.lt_of_le_of_lt (Nat.min_le_right _ _) infinityBits_lt)

/-- A double made from a magnitude has no sign. -/
theorem isNegative_ofMagnitude (bits : Nat) : (ofMagnitude bits).isNegative = false := by
  unfold isNegative
  rw [toNat_ofMagnitude, decide_eq_false_iff_not, Nat.not_le]
  exact Nat.lt_of_le_of_lt (Nat.min_le_right _ _) infinityBits_lt

/-- Among the doubles without a sign each is told by its magnitude. -/
theorem eq_of_magnitude (unsigned : x.isNegative = false) (other_unsigned : y.isNegative = false)
    (same : x.magnitude = y.magnitude) : x = y := by
  obtain ⟨x_bits⟩ := x
  obtain ⟨y_bits⟩ := y
  unfold isNegative at unsigned other_unsigned
  rw [decide_eq_false_iff_not, Nat.not_le] at unsigned other_unsigned
  unfold magnitude at same
  rw [Nat.mod_eq_of_lt unsigned, Nat.mod_eq_of_lt other_unsigned] at same
  exact congrArg Binary64.mk (UInt64.toNat_inj.mp same)

/-! ## Correct rounding -/

/-- Half a step beyond the largest double. -/
def overflow : ℚ :=
  2 ^ 1024 - 2 ^ 970

/-- The double is finite, has no sign, and no finite double is less far from the number; it has an
even significand if another one is as far. -/
structure IsNearest (x : Binary64) (number : ℚ) : Prop where
  isFinite : x.IsFinite
  unsigned : x.isNegative = false
  least : ∀ y : Binary64, y.IsFinite → |x.value - number| ≤ |y.value - number|
  even : ∀ y : Binary64, y.IsFinite → y.value ≠ x.value →
    |y.value - number| = |x.value - number| → Even x.significand

/-- The double is the number correctly rounded. -/
structure IsRounded (x : Binary64) (number : ℚ) : Prop where
  nearest : number < overflow → x.IsNearest number
  infinite : overflow ≤ number → x = infinity

/-! ## Midpoints and distances -/

section Distances
variable {a b t : ℚ}

/-- Which of two numbers is nearer to a third is told by their midpoint and their order. -/
theorem abs_sub_le_abs_sub_iff : |a - t| ≤ |b - t| ↔ 0 ≤ (b - a) * (a + b - 2 * t) := by
  have difference : (b - t) ^ 2 - (a - t) ^ 2 = (b - a) * (a + b - 2 * t) := by ring
  rw [← sq_le_sq, ← sub_nonneg, difference]

/-- Two numbers are equally far from a third if and only if it is their midpoint. -/
theorem abs_sub_eq_abs_sub_iff (distinct : b ≠ a) : |b - t| = |a - t| ↔ 2 * t = a + b := by
  have difference : (b - t) ^ 2 - (a - t) ^ 2 = (b - a) * (a + b - 2 * t) := by ring
  rw [← sq_eq_sq_iff_abs_eq_abs, ← sub_eq_zero, difference, mul_eq_zero, sub_eq_zero,
    or_iff_right distinct, sub_eq_zero, eq_comm]

/-- The greater number is no farther from what is not below the midpoint. -/
theorem abs_sub_le_of_lt (less : b < a) : |a - t| ≤ |b - t| ↔ b + a ≤ 2 * t := by
  rw [abs_sub_le_abs_sub_iff, ← neg_mul_neg, neg_sub, neg_sub,
    mul_nonneg_iff_of_pos_left (sub_pos.mpr less), sub_nonneg, add_comm]

/-- The smaller number is no farther from what is not above the midpoint. -/
theorem abs_sub_le_of_gt (greater : a < b) : |a - t| ≤ |b - t| ↔ 2 * t ≤ a + b := by
  rw [abs_sub_le_abs_sub_iff, mul_nonneg_iff_of_pos_left (sub_pos.mpr greater), sub_nonneg]

end Distances

/-- Whether a magnitude is nearest can be said in numbers instead of units. -/
theorem nearest_mul_unitsPerOne :
    Nearest (number * unitsPerOne) bits ↔
      (∀ other < bits, amount other + amount bits ≤ 2 * number) ∧
      (∀ other > bits, 2 * number ≤ amount bits + amount other) ∧
      ∀ other ≠ bits, 2 * number = amount bits + amount other → Even bits := by
  have below (first second : Nat) : amount first + amount second ≤ 2 * number ↔
      (unitsOfBits first + unitsOfBits second : ℚ) ≤ 2 * (number * unitsPerOne) := by
    unfold amount
    rw [← add_div, div_le_iff₀ unitsPerOne_pos, mul_assoc]
  have above (first second : Nat) : 2 * number ≤ amount first + amount second ↔
      2 * (number * unitsPerOne) ≤ (unitsOfBits first + unitsOfBits second : ℚ) := by
    unfold amount
    rw [← add_div, le_div_iff₀ unitsPerOne_pos, mul_assoc]
  have equal (first second : Nat) : 2 * number = amount first + amount second ↔
      2 * (number * unitsPerOne) = (unitsOfBits first + unitsOfBits second : ℚ) := by
    rw [le_antisymm_iff, le_antisymm_iff, above, below]
  simp only [below, above, equal]
  exact ⟨fun near => ⟨near.below, near.above, near.even⟩,
    fun ⟨lower, upper, tie⟩ => ⟨lower, upper, tie⟩⟩

/-! ## The overflow -/

/-- The overflow is the midpoint between the largest double and what would follow it. -/
theorem amount_add_amount_infinityBits (next : bits + 1 = infinityBits) :
    amount bits + amount infinityBits = 2 * overflow := by
  have positive := fractions_pos
  have after : infinityBits = (2046 + 1) * fractions + 0 := by
    rw [Nat.add_zero]
    rfl
  have largest : bits = (2045 + 1) * fractions + (fractions - 1) := by omega
  have units (exponent : Nat) :
      (unitsOfBits ((exponent + 1) * fractions + (fractions - 1)) : ℚ) +
        unitsOfBits ((exponent + 1 + 1) * fractions + 0) = (4 * 2 ^ 52 - 1) * 2 ^ exponent := by
    have cast : (fractions : ℚ) = 2 ^ 52 := by exact_mod_cast rfl
    rw [unitsOfBits_normal exponent (Nat.sub_lt positive Nat.one_pos),
      unitsOfBits_normal (exponent + 1) positive]
    push_cast [Nat.cast_pred positive, cast]
    ring
  have powers (width unit step : Nat) :
      2 * ((2 : ℚ) ^ (width + 2 + step) - 2 ^ step) * 2 ^ unit =
        (4 * 2 ^ width - 1) * 2 ^ (unit + 1 + step) := by
    ring
  have scaled : 2 * ((2 : ℚ) ^ 1024 - 2 ^ 970) * 2 ^ 1074 = (4 * 2 ^ 52 - 1) * 2 ^ 2045 :=
    powers 52 1074 970
  unfold amount overflow
  rw [← add_div, div_eq_iff unitsPerOne_pos.ne', cast_unitsPerOne, scaled, largest, after]
  exact units 2045

/-- Halfway beyond the greatest double, infinity is the nearest magnitude. -/
theorem nearest_overflow : Nearest (overflow * unitsPerOne) infinityBits := by
  have even : Even infinityBits := even_fractions.mul_left 2047
  obtain ⟨largest, next⟩ : ∃ largest, largest + 1 = infinityBits := ⟨infinityBits - 1, rfl⟩
  have midpoint := amount_add_amount_infinityBits next
  rw [nearest_mul_unitsPerOne]
  refine ⟨?_, ?_, fun _ _ _ => even⟩
  · intro other less
    have last : amount other ≤ amount largest := strictMono_amount.monotone (by omega)
    linarith
  · intro other greater
    have first : amount largest < amount other := strictMono_amount (by omega)
    linarith

/-- Rounding goes beyond the finite doubles from the overflow on. -/
theorem infinityBits_le_iff (near : Nearest (number * unitsPerOne) bits) :
    infinityBits ≤ bits ↔ overflow ≤ number := by
  constructor
  · intro beyond
    obtain ⟨largest, next⟩ : ∃ largest, largest + 1 = infinityBits := ⟨infinityBits - 1, rfl⟩
    have midpoint := amount_add_amount_infinityBits next
    have lower := (nearest_mul_unitsPerOne.mp near).1 largest (by omega)
    have further : amount infinityBits ≤ amount bits := strictMono_amount.monotone beyond
    linarith
  · intro order
    exact nearest_overflow.le near (mul_le_mul_of_nonneg_right order unitsPerOne_pos.le)

/-! ## Rounding is correct -/

/-- A double made from a magnitude below infinity is finite. -/
theorem isFinite_ofMagnitude (finite : bits < infinityBits) : (ofMagnitude bits).IsFinite := by
  unfold IsFinite
  rw [magnitude_ofMagnitude, Nat.min_eq_left finite.le]
  exact finite

/-- A double made from a magnitude below infinity has the amount of it as its value. -/
theorem value_ofMagnitude (finite : bits < infinityBits) :
    (ofMagnitude bits).value = amount bits := by
  rw [value_of_unsigned (isNegative_ofMagnitude bits), magnitude_ofMagnitude,
    Nat.min_eq_left finite.le]

/-- The nearest magnitude is at the least distance. -/
theorem Nearest.abs_amount_sub_le (near : Nearest (number * unitsPerOne) bits) (other : Nat) :
    |amount bits - number| ≤ |amount other - number| := by
  obtain ⟨below, above, -⟩ := nearest_mul_unitsPerOne.mp near
  rcases Nat.lt_trichotomy other bits with less | rfl | greater
  · exact (abs_sub_le_of_lt (strictMono_amount less)).mpr (below other less)
  · exact le_rfl
  · exact (abs_sub_le_of_gt (strictMono_amount greater)).mpr (above other greater)

/-- A sign only takes a double further from a number that has none. -/
theorem abs_amount_sub_le_abs_value_sub (nonneg : 0 ≤ number) (y : Binary64) :
    |amount y.magnitude - number| ≤ |y.value - number| := by
  have closer := abs_abs_sub_abs_le_abs_sub y.value number
  rw [abs_value, abs_of_nonneg nonneg] at closer
  exact closer

/-- A magnitude nearest by the midpoints makes a double nearest by the distances. -/
theorem isNearest_ofMagnitude (nonneg : 0 ≤ number) (near : Nearest (number * unitsPerOne) bits)
    (finite : bits < infinityBits) : (ofMagnitude bits).IsNearest number := by
  have drop_sign := abs_amount_sub_le_abs_value_sub nonneg
  obtain ⟨below, -, even⟩ := nearest_mul_unitsPerOne.mp near
  refine ⟨isFinite_ofMagnitude finite, isNegative_ofMagnitude bits, ?_, ?_⟩
  · intro y _
    rw [value_ofMagnitude finite]
    exact (near.abs_amount_sub_le y.magnitude).trans (drop_sign y)
  · intro y _ distinct tie
    rw [value_ofMagnitude finite] at distinct tie
    rw [even_significand, magnitude_ofMagnitude, Nat.min_eq_left finite.le]
    by_cases same : y.magnitude = bits
    · -- As far and not the same, but with the same magnitude: only zero is between the two.
      have opposite : y.value = - amount bits := by
        have absolute : |y.value| = |amount bits| := by
          rw [abs_value, same, abs_of_nonneg (amount_nonneg bits)]
        exact (abs_eq_abs.mp absolute).resolve_left distinct
      have middle := (abs_sub_eq_abs_sub_iff distinct).mp tie
      rw [opposite, add_neg_cancel] at middle
      rcases Nat.eq_zero_or_pos bits with rfl | positive
      · exact Even.zero
      · have lower := below 0 positive
        have more := strictMono_amount positive
        linarith [amount_zero]
    · have apart : amount y.magnitude ≠ amount bits := strictMono_amount.injective.ne same
      have same_distance : |amount y.magnitude - number| = |amount bits - number| :=
        le_antisymm ((drop_sign y).trans tie.le) (near.abs_amount_sub_le y.magnitude)
      exact even y.magnitude same ((abs_sub_eq_abs_sub_iff apart).mp same_distance)

namespace IsNearest

/-- A nearest double is no farther from the number than any finite magnitude. -/
theorem least_amount (near : x.IsNearest number) (finite : other < infinityBits) :
    |amount x.magnitude - number| ≤ |amount other - number| := by
  have least := near.least (ofMagnitude other) (isFinite_ofMagnitude finite)
  rw [value_ofMagnitude finite, value_of_unsigned near.unsigned] at least
  exact least

/-- Below the overflow the midpoints to what would follow the largest double are out of reach. -/
theorem lt_midpoint (near : x.IsNearest number) (below : number < overflow)
    (infinite : infinityBits ≤ other) : 2 * number < amount x.magnitude + amount other := by
  obtain ⟨largest, next⟩ : ∃ largest, largest + 1 = infinityBits := ⟨infinityBits - 1, rfl⟩
  have midpoint := amount_add_amount_infinityBits next
  have further : amount infinityBits ≤ amount other := strictMono_amount.monotone infinite
  rcases Nat.lt_or_eq_of_le (Nat.lt_succ_iff.mp (near.isFinite.trans_eq next.symm)) with
    less | last
  · have inside : largest < infinityBits := by omega
    have closer := near.least_amount inside
    rw [abs_sub_le_of_gt (strictMono_amount less)] at closer
    have step : amount largest < amount infinityBits := strictMono_amount inside
    linarith
  · rw [last]
    linarith

/-- A double nearest by the distances has a magnitude nearest by the midpoints. -/
theorem nearest (near : x.IsNearest number) (below : number < overflow) :
    Nearest (number * unitsPerOne) x.magnitude := by
  rw [nearest_mul_unitsPerOne]
  refine ⟨?_, ?_, ?_⟩
  · intro other less
    exact (abs_sub_le_of_lt (strictMono_amount less)).mp
      (near.least_amount (less.trans near.isFinite))
  · intro other greater
    rcases Nat.lt_or_ge other infinityBits with inside | infinite
    · exact (abs_sub_le_of_gt (strictMono_amount greater)).mp (near.least_amount inside)
    · exact (near.lt_midpoint below infinite).le
  · intro other distinct tie
    rcases Nat.lt_or_ge other infinityBits with inside | infinite
    · have apart : amount other ≠ amount x.magnitude := strictMono_amount.injective.ne distinct
      have same_distance := (abs_sub_eq_abs_sub_iff apart).mpr tie
      rw [← value_ofMagnitude inside, ← value_of_unsigned near.unsigned] at apart same_distance
      exact even_significand.mp
        (near.even (ofMagnitude other) (isFinite_ofMagnitude inside) apart same_distance)
    · exact absurd tie (near.lt_midpoint below infinite).ne

end IsNearest

/-- A nearest magnitude makes the double that the number is rounded to. -/
theorem isRounded_ofMagnitude (nonneg : 0 ≤ number)
    (near : Nearest (number * unitsPerOne) bits) : (ofMagnitude bits).IsRounded number := by
  constructor
  · intro below
    have finite : bits < infinityBits := by
      rw [← Nat.not_le, infinityBits_le_iff near, not_le]
      exact below
    exact isNearest_ofMagnitude nonneg near finite
  · intro order
    have beyond := (infinityBits_le_iff near).mpr order
    unfold infinity ofMagnitude
    rw [Nat.min_eq_right beyond, Nat.min_self]

/-- Only one double is a number correctly rounded. -/
theorem IsRounded.eq (rounded : x.IsRounded number) (other_rounded : y.IsRounded number) :
    x = y := by
  rcases lt_or_ge number overflow with below | order
  · have near := rounded.nearest below
    have other_near := other_rounded.nearest below
    exact eq_of_magnitude near.unsigned other_near.unsigned
      ((near.nearest below).eq (other_near.nearest below))
  · rw [rounded.infinite order, other_rounded.infinite order]

/-- The double that is read from a decimal is the one that its value is rounded to. -/
theorem isRounded_nearest (d : Decimal) : (nearest d).IsRounded d.value := by
  unfold nearest
  rw [nearestRatio_eq]
  apply isRounded_ofMagnitude d.value_nonneg
  have near := nearest_ratioBits (d.numerator * unitsPerOne) d.denominator_pos
  rw [Nat.cast_mul, mul_div_right_comm, d.numerator_div_denominator] at near
  exact near

/-- The double nearest to a decimal is its value correctly rounded. -/
theorem isRounded_iff {d : Decimal} : x.IsRounded d.value ↔ x = nearest d := by
  constructor
  · intro rounded
    exact rounded.eq (isRounded_nearest d)
  · rintro rfl
    exact isRounded_nearest d

/-! ## Signs, zero and order -/

namespace IsRounded

/-- Rounding gives no double with a sign. -/
theorem isNegative_eq_false (rounded : x.IsRounded number) : x.isNegative = false := by
  rcases lt_or_ge number overflow with below | order
  · exact (rounded.nearest below).unsigned
  · rw [rounded.infinite order]
    exact isNegative_ofMagnitude infinityBits

theorem isNaN_eq_false (rounded : x.IsRounded number) : x.isNaN = false := by
  unfold isNaN
  rw [decide_eq_false_iff_not, Nat.not_lt]
  rcases lt_or_ge number overflow with below | order
  · exact (rounded.nearest below).isFinite.le
  · rw [rounded.infinite order, infinity, magnitude_ofMagnitude]
    exact Nat.min_le_right _ _

/-- Up to half a unit there is only zero. -/
theorem bits_eq_zero (rounded : x.IsRounded number) (small : number ≤ 1 / 2 ^ 1075) :
    x.bits = 0 := by
  have one : unitsOfBits (0 + 1) = 1 := if_pos (by decide)
  have half : Nearest (1 / 2) 0 := by
    apply Nearest.of_neighbours
    · nofun
    · rw [unitsOfBits_zero, one]
      norm_num
    · nofun
    · exact fun _ => Even.zero
  have scaled : number * unitsPerOne ≤ 1 / 2 := by
    have double : (2 : ℚ) ^ 1075 = 2 ^ 1074 * 2 := pow_succ 2 1074
    rw [double, ← cast_unitsPerOne, mul_comm, ← div_div] at small
    exact (le_div_iff₀ unitsPerOne_pos).mp small
  have below : number < overflow := by
    by_contra! order
    have beyond := mul_le_mul_of_nonneg_right order unitsPerOne_pos.le
    exact absurd (nearest_overflow.le half (beyond.trans scaled)) (by decide)
  have near := rounded.nearest below
  have zero : x.magnitude = 0 := Nat.le_zero.mp ((near.nearest below).le half scaled)
  have same : x = ofMagnitude 0 := eq_of_magnitude near.unsigned (isNegative_ofMagnitude 0)
    (zero.trans (magnitude_ofMagnitude 0).symm)
  rw [same]
  rfl

/-- Rounding keeps the order of numbers. -/
theorem mono (rounded : x.IsRounded number) (greater_rounded : y.IsRounded greater)
    (order : number ≤ greater) : x.IsAtMost y := by
  rcases lt_or_ge greater overflow with below | infinite
  · have near := rounded.nearest (order.trans_lt below)
    have greater_near := greater_rounded.nearest below
    have bits := (near.nearest (order.trans_lt below)).le (greater_near.nearest below)
      (mul_le_mul_of_nonneg_right order unitsPerOne_pos.le)
    refine .inr ⟨near.isFinite, greater_near.isFinite, ?_⟩
    rw [value_of_unsigned near.unsigned, value_of_unsigned greater_near.unsigned]
    exact strictMono_amount.monotone bits
  · exact .inl (greater_rounded.infinite infinite)

end IsRounded

end Binary64

end LoxLexer
