import Mathlib.Algebra.Order.Field.Basic
import Mathlib.Algebra.Order.Floor.Semiring
import Mathlib.Data.Nat.Cast.Order.Field
import Mathlib.Tactic.FieldSimp
import Mathlib.Tactic.Positivity
import LoxLexer.Binary64.Rounding
import LoxLexer.Proofs.Binary64.Magnitude

/-! # Rounding a ratio

Rounding to a whole number leaves at most a half, and exactly a half only where it gives an even
number (`IsHalfEven`). The surplus bits that are cut off a ratio leave a significand with a leading
bit, or there are none (`Surplus`), so rounding the rest gives the nearest magnitude
(`nearest_ratioBits`), also where the significand grows into the next exponent. -/

namespace LoxLexer

/-- The whole number is at most a half away, and a half only if it is even. -/
structure IsHalfEven (number : ℚ) (whole : Nat) : Prop where
  lower : 2 * (whole : ℚ) - 1 ≤ 2 * number
  upper : 2 * number ≤ 2 * (whole : ℚ) + 1
  even_lower : 2 * number = 2 * (whole : ℚ) - 1 → Even whole
  even_upper : 2 * number = 2 * (whole : ℚ) + 1 → Even whole

namespace IsHalfEven
variable {number : ℚ} {whole : Nat}

/-- A whole number less than half away from the number is the rounded one. -/
theorem of_lt (lower : 2 * (whole : ℚ) - 1 < 2 * number)
    (upper : 2 * number < 2 * (whole : ℚ) + 1) : IsHalfEven number whole where
  lower := lower.le
  upper := upper.le
  even_lower := fun tie => absurd tie lower.ne'
  even_upper := fun tie => absurd tie upper.ne

/-- An even number at most half away from the number is the rounded one. -/
theorem of_even (lower : 2 * (whole : ℚ) - 1 ≤ 2 * number)
    (upper : 2 * number ≤ 2 * (whole : ℚ) + 1) (even : Even whole) : IsHalfEven number whole where
  lower := lower
  upper := upper
  even_lower := fun _ => even
  even_upper := fun _ => even

end IsHalfEven

/-- Rounding a ratio by its remainder is rounding to the nearest, ties to even. -/
theorem isHalfEven_roundHalfEven (num : Nat) {den : Nat} (positive : 0 < den) :
    IsHalfEven (num / den) (roundHalfEven num den) := by
  have den_pos : (0 : ℚ) < den := Nat.cast_pos.mpr positive
  have parts : (num : ℚ) / den = (num / den : ℕ) + (num % den : ℕ) / (den : ℚ) := by
    have whole : ((den * (num / den) + num % den : ℕ) : ℚ) = num := by rw [Nat.div_add_mod]
    push_cast at whole
    field_simp
    linarith
  have rest_nonneg : (0 : ℚ) ≤ (num % den : ℕ) / (den : ℚ) := by positivity
  have rest_lt : ((num % den : ℕ) : ℚ) / den < 1 := by
    rw [div_lt_one den_pos]
    exact_mod_cast Nat.mod_lt num positive
  rw [parts]
  unfold roundHalfEven
  -- What is left of the ratio beside its whole part is less than a half, more, or a half.
  by_cases below : 2 * (num % den) < den
  · have half : 2 * (((num % den : ℕ) : ℚ) / den) < 1 := by
      rw [← mul_div_assoc, div_lt_one den_pos]
      exact_mod_cast below
    simp only [below, ↓reduceIte]
    exact .of_lt (by linarith) (by linarith)
  by_cases above : den < 2 * (num % den)
  · have half : 1 < 2 * (((num % den : ℕ) : ℚ) / den) := by
      rw [← mul_div_assoc, one_lt_div den_pos]
      exact_mod_cast above
    simp only [below, above, ↓reduceIte]
    apply IsHalfEven.of_lt
    · push_cast
      linarith
    · push_cast
      linarith
  · have half : 2 * (((num % den : ℕ) : ℚ) / den) = 1 := by
      have tie : 2 * (num % den) = den := by omega
      rw [← mul_div_assoc, div_eq_one_iff_eq den_pos.ne']
      exact_mod_cast tie
    simp only [below, above, ↓reduceIte]
    apply IsHalfEven.of_even
    · have step : ((num / den + num / den % 2 : ℕ) : ℚ) ≤ (num / den : ℕ) + 1 := by
        exact_mod_cast Nat.add_le_add_left (by omega) (num / den)
      linarith
    · have step : ((num / den : ℕ) : ℚ) ≤ (num / den + num / den % 2 : ℕ) := by
        exact_mod_cast Nat.le_add_right _ _
      linarith
    · rw [Nat.even_iff]
      omega

namespace Binary64

/-- What is left of the number without these surplus bits has fifty-three bits, or fewer if there
are no surplus bits. -/
structure Surplus (number : ℚ) (surplus : Nat) : Prop where
  leading : surplus = 0 ∨ (fractions : ℚ) * 2 ^ surplus ≤ number
  fits : number < 2 * fractions * 2 ^ surplus

/-- The bits that are counted as surplus are the surplus of the ratio. -/
theorem surplus_surplusBits (num : Nat) {den : Nat} (positive : 0 < den) :
    Surplus (num / den) (surplusBits (num / den)) := by
  have den_pos : (0 : ℚ) < den := Nat.cast_pos.mpr positive
  have floor_le : ((num / den : ℕ) : ℚ) ≤ num / den := Nat.cast_div_le
  have lt_floor : (num : ℚ) / den < (num / den : ℕ) + 1 := by
    rw [div_lt_iff₀ den_pos]
    exact_mod_cast Nat.lt_mul_of_div_lt (Nat.lt_succ_self _) positive
  generalize (num : ℚ) / den = number at floor_le lt_floor ⊢
  generalize num / den = whole at floor_le lt_floor ⊢
  constructor
  · by_cases none : surplusBits whole = 0
    · exact .inl none
    · right
      have not_zero : whole ≠ 0 := by
        rintro rfl
        exact none rfl
      have length : 52 + surplusBits whole = whole.log2 := by
        unfold surplusBits at none ⊢
        omega
      have large : fractions * 2 ^ surplusBits whole ≤ whole := by
        change 2 ^ 52 * _ ≤ _
        rw [← Nat.pow_add, length]
        exact Nat.log2_self_le not_zero
      have cast : (fractions : ℚ) * 2 ^ surplusBits whole ≤ whole := by exact_mod_cast large
      exact cast.trans floor_le
  · have small : whole + 1 ≤ 2 * fractions * 2 ^ surplusBits whole := by
      have below : whole < 2 ^ (whole.log2 + 1) := Nat.lt_log2_self
      have length : whole.log2 + 1 ≤ 53 + surplusBits whole := by
        unfold surplusBits
        omega
      calc whole + 1 ≤ 2 ^ (whole.log2 + 1) := below
        _ ≤ 2 ^ (53 + surplusBits whole) := Nat.pow_le_pow_right Nat.two_pos length
        _ = 2 * fractions * 2 ^ surplusBits whole := Nat.pow_add 2 53 _
    have cast : (whole : ℚ) + 1 ≤ 2 * fractions * 2 ^ surplusBits whole := by exact_mod_cast small
    exact lt_floor.trans_le cast

/-! ## The significand that is left -/

section Significand
variable {number : ℚ} {surplus significand other : Nat} (cut : Surplus number surplus)
  (rounded : IsHalfEven (number / 2 ^ surplus) significand)

include cut rounded

/-- A rounded significand has fifty-three bits, or is the power of two above them. -/
theorem significand_le : significand ≤ 2 * fractions := by
  have step_pos : (0 : ℚ) < 2 ^ surplus := by positivity
  have left_lt : number / 2 ^ surplus < 2 * fractions := (div_lt_iff₀ step_pos).mpr cut.fits
  have close : (significand : ℚ) < 2 * fractions + 1 := by linarith [rounded.lower]
  exact Nat.lt_succ_iff.mp (by exact_mod_cast close)

/-- Where bits are cut off, the significand that is left is a normal one. -/
theorem fractions_le_significand : surplus = 0 ∨ fractions ≤ significand := by
  have step_pos : (0 : ℚ) < 2 ^ surplus := by positivity
  refine cut.leading.imp_right fun large => ?_
  have left_ge : (fractions : ℚ) ≤ number / 2 ^ surplus := (le_div_iff₀ step_pos).mpr large
  have close : (fractions : ℚ) < significand + 1 := by linarith [rounded.upper]
  exact Nat.lt_succ_iff.mp (by exact_mod_cast close)

/-- A significand beside its surplus stands for the units that it is scaled to. -/
theorem units_significand :
    (unitsOfBits (surplus * fractions + significand) : ℚ) = significand * 2 ^ surplus := by
  exact_mod_cast unitsOfBits_add (fractions_le_significand cut rounded)
    (significand_le cut rounded)

/-- The magnitude below is one step away, or it belongs to the exponent below and the number is not
on its side. -/
theorem units_below (next : other + 1 = surplus * fractions + significand) :
    (unitsOfBits other : ℚ) = (significand - 1) * 2 ^ surplus ∨
      (unitsOfBits other : ℚ) + unitsOfBits (surplus * fractions + significand) <
        2 * number := by
  have leading := fractions_le_significand cut rounded
  have fits := significand_le cut rounded
  by_cases same : surplus = 0 ∨ fractions + 1 ≤ significand
  · left
    have some_units : 1 ≤ significand := by
      rcases same with rfl | large
      · omega
      · omega
    have bits : other = surplus * fractions + (significand - 1) := by omega
    have units := unitsOfBits_add (same.imp_right Nat.le_sub_one_of_lt)
      ((Nat.sub_le significand 1).trans fits)
    rw [bits, units, Nat.cast_mul, Nat.cast_sub some_units, Nat.cast_pow, Nat.cast_one,
      Nat.cast_ofNat]
  · right
    rw [not_or] at same
    have first : significand = fractions := by
      have large := leading.resolve_left same.1
      omega
    have smaller : (unitsOfBits other : ℚ) < unitsOfBits (surplus * fractions + significand) :=
      Nearest.units_lt (by omega)
    have passed := cut.leading.resolve_left same.1
    rw [← first, ← units_significand cut rounded] at passed
    linarith

/-- The magnitude above is one step away, or the significand has grown into the next exponent and
the number is below it. -/
theorem units_above :
    (unitsOfBits (surplus * fractions + significand + 1) : ℚ) = (significand + 1) * 2 ^ surplus ∨
      2 * number < (unitsOfBits (surplus * fractions + significand) : ℚ) +
        unitsOfBits (surplus * fractions + significand + 1) := by
  have leading := fractions_le_significand cut rounded
  have fits := significand_le cut rounded
  by_cases same : significand + 1 ≤ 2 * fractions
  · left
    have units := unitsOfBits_add (leading.imp_right fun large => Nat.le_succ_of_le large) same
    rw [Nat.add_assoc, units, Nat.cast_mul, Nat.cast_succ, Nat.cast_pow, Nat.cast_ofNat]
  · right
    have last : significand = 2 * fractions := by omega
    have greater : (unitsOfBits (surplus * fractions + significand) : ℚ) <
        unitsOfBits (surplus * fractions + significand + 1) :=
      Nearest.units_lt (Nat.lt_succ_self _)
    have short := cut.fits
    have here := units_significand cut rounded
    rw [last] at here greater ⊢
    push_cast at here
    rw [← here] at short
    linarith

/-- The rounded significand is that of the nearest magnitude. -/
theorem nearest_of_surplus : Nearest number (surplus * fractions + significand) := by
  have step_pos : (0 : ℚ) < 2 ^ surplus := by positivity
  have here := units_significand cut rounded
  have even_iff : Even (surplus * fractions + significand) ↔ Even significand :=
    Nat.even_add.trans (iff_true_left (even_fractions.mul_left surplus))
  have whole : number = number / 2 ^ surplus * 2 ^ surplus :=
    (div_mul_cancel₀ number step_pos.ne').symm
  apply Nearest.of_neighbours
  · intro other next
    rcases units_below cut rounded next with step | apart
    · rw [step, here, ← add_mul, whole, ← mul_assoc]
      exact mul_le_mul_of_nonneg_right (by linarith [rounded.lower]) step_pos.le
    · exact apart.le
  · rcases units_above cut rounded with step | apart
    · rw [step, here, ← add_mul, whole, ← mul_assoc]
      exact mul_le_mul_of_nonneg_right (by linarith [rounded.upper]) step_pos.le
    · exact apart.le
  · intro other next tie
    rcases units_below cut rounded next with step | apart
    · rw [step, here, ← add_mul, whole, ← mul_assoc] at tie
      refine even_iff.mpr (rounded.even_lower ?_)
      linarith [mul_right_cancel₀ step_pos.ne' tie]
    · linarith
  · intro tie
    rcases units_above cut rounded with step | apart
    · rw [step, here, ← add_mul, whole, ← mul_assoc] at tie
      refine even_iff.mpr (rounded.even_upper ?_)
      linarith [mul_right_cancel₀ step_pos.ne' tie]
    · linarith

end Significand

/-! ## Ratios -/

/-- The magnitude bits of a ratio of units before they are cut at infinity. -/
def ratioBits (num den : Nat) : Nat :=
  let surplus := surplusBits (num / den)
  surplus * fractions + roundHalfEven num (den * Nat.pow 2 surplus)

/-- A ratio is rounded by making a double from a magnitude. -/
theorem nearestRatio_eq (num den : Nat) :
    nearestRatio num den = ofMagnitude (ratioBits (num * unitsPerOne) den) :=
  rfl

/-- The bits that rounding a ratio gives are those of the nearest magnitude. -/
theorem nearest_ratioBits (num : Nat) {den : Nat} (positive : 0 < den) :
    Nearest (num / den) (ratioBits num den) := by
  apply nearest_of_surplus (surplus_surplusBits num positive)
  have rounded := isHalfEven_roundHalfEven num
    (Nat.mul_pos positive (Nat.two_pow_pos (surplusBits (num / den))))
  rw [Nat.cast_mul, ← div_div, Nat.cast_pow, Nat.cast_ofNat] at rounded
  exact rounded

end Binary64

end LoxLexer
