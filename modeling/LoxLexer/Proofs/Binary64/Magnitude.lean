import Mathlib.Algebra.Order.Field.Rat
import Mathlib.Algebra.Order.Ring.Abs
import Mathlib.Algebra.Ring.Parity
import Mathlib.Order.Monotone.Basic
import Mathlib.Tactic.Linarith
import Mathlib.Tactic.Ring
import LoxLexer.Binary64.Basic

/-! # Magnitudes in order

Magnitude bits count the magnitudes of doubles from zero up: more bits are more units
(`strictMono_unitsOfBits`). So the magnitude nearest to a number, a tie going to the even bits, is
said by the midpoints between magnitudes (`Nearest`). There is at most one, it does not decrease
where the number increases (`Nearest.le`), and it is nearest to every number between two that it is
nearest to (`Nearest.of_between`). -/

namespace LoxLexer.Binary64

theorem fractions_pos : 0 < fractions :=
  Nat.two_pow_pos 52

theorem even_fractions : Even fractions :=
  ⟨2 ^ 51, rfl⟩

/-! ## Units -/

/-- Bits with an exponent field that is not zero have a leading one before the fraction. -/
theorem unitsOfBits_normal (exponent : Nat) {fraction : Nat} (inside : fraction < fractions) :
    unitsOfBits ((exponent + 1) * fractions + fraction) =
      (fractions + fraction) * 2 ^ exponent := by
  have quotient : ((exponent + 1) * fractions + fraction) / fractions = exponent + 1 := by
    rw [Nat.add_comm, Nat.add_mul_div_right _ _ fractions_pos, Nat.div_eq_of_lt inside,
      Nat.zero_add]
  have remainder : ((exponent + 1) * fractions + fraction) % fractions = fraction :=
    Nat.mul_add_mod_of_lt inside
  have large : ¬ (exponent + 1) * fractions + fraction < fractions := by
    rw [Nat.add_mul, Nat.one_mul]
    omega
  unfold unitsOfBits
  rw [if_neg large, quotient, remainder]
  rfl

/-- The units of a significand beside surplus bits. Without its leading bit it stands beside none,
and one that has grown to twice the leading bit belongs to the next exponent. -/
theorem unitsOfBits_add {surplus significand : Nat}
    (leading : surplus = 0 ∨ fractions ≤ significand) (fits : significand ≤ 2 * fractions) :
    unitsOfBits (surplus * fractions + significand) = significand * 2 ^ surplus := by
  rcases Nat.lt_or_ge significand fractions with small | large
  · obtain rfl := leading.resolve_right (Nat.not_le.mpr small)
    rw [Nat.zero_mul, Nat.zero_add, Nat.pow_zero, Nat.mul_one]
    exact if_pos small
  rcases Nat.lt_or_eq_of_le fits with inside | grown
  · have bits : surplus * fractions + significand =
        (surplus + 1) * fractions + (significand - fractions) := by
      rw [Nat.add_mul, Nat.one_mul]
      omega
    rw [bits, unitsOfBits_normal surplus (by omega), Nat.add_sub_cancel' large]
  · have bits : surplus * fractions + significand = (surplus + 1 + 1) * fractions + 0 := by
      rw [grown, Nat.add_mul, Nat.add_mul]
      omega
    rw [bits, unitsOfBits_normal (surplus + 1) fractions_pos, grown, Nat.pow_succ]
    ring

/-- All bits are a significand below the next exponent beside surplus bits. -/
theorem exists_eq_add (bits : Nat) :
    ∃ surplus significand, bits = surplus * fractions + significand ∧
      (surplus = 0 ∨ fractions ≤ significand) ∧ significand < 2 * fractions := by
  have whole := Nat.div_add_mod' bits fractions
  have inside := Nat.mod_lt bits fractions_pos
  cases exponent : bits / fractions with
  | zero =>
      rw [exponent, Nat.zero_mul] at whole
      exact ⟨0, bits, by omega, .inl rfl, by omega⟩
  | succ surplus =>
      rw [exponent, Nat.add_mul, Nat.one_mul] at whole
      exact ⟨surplus, fractions + bits % fractions, by omega, .inr (by omega), by omega⟩

/-- A greater magnitude is a greater number of units. -/
theorem strictMono_unitsOfBits : StrictMono unitsOfBits := by
  apply strictMono_nat_of_lt_succ
  intro bits
  obtain ⟨surplus, significand, rfl, leading, fits⟩ := exists_eq_add bits
  have next : surplus = 0 ∨ fractions ≤ significand + 1 :=
    leading.imp_right fun large => Nat.le_succ_of_le large
  rw [unitsOfBits_add leading fits.le, Nat.add_assoc, unitsOfBits_add next fits]
  exact Nat.mul_lt_mul_of_pos_right (Nat.lt_succ_self significand) (Nat.two_pow_pos surplus)

/-- The units of the next magnitude are at most twice as many. -/
theorem unitsOfBits_succ_le {bits : Nat} (positive : 0 < bits) :
    unitsOfBits (bits + 1) ≤ 2 * unitsOfBits bits := by
  obtain ⟨surplus, significand, rfl, leading, fits⟩ := exists_eq_add bits
  have next : surplus = 0 ∨ fractions ≤ significand + 1 :=
    leading.imp_right fun large => Nat.le_succ_of_le large
  have some_units : 1 ≤ significand := by
    rcases leading with rfl | large
    · omega
    · exact fractions_pos.trans_le large
  rw [unitsOfBits_add leading fits.le, Nat.add_assoc, unitsOfBits_add next fits, ← Nat.mul_assoc]
  exact Nat.mul_le_mul_right _ (by omega)

theorem unitsOfBits_zero : unitsOfBits 0 = 0 :=
  if_pos fractions_pos

/-! ## The nearest magnitude -/

/-- The magnitude with these bits is nearest to the number of units: the midpoints to all smaller
magnitudes are below the number, those to all greater ones above it, and the number is a midpoint
only if the bits are even. -/
structure Nearest (number : ℚ) (bits : Nat) : Prop where
  below : ∀ other < bits, (unitsOfBits other + unitsOfBits bits : ℚ) ≤ 2 * number
  above : ∀ other > bits, 2 * number ≤ (unitsOfBits bits + unitsOfBits other : ℚ)
  even : ∀ other ≠ bits, 2 * number = (unitsOfBits bits + unitsOfBits other : ℚ) → Even bits

namespace Nearest
variable {number first second : ℚ} {bits other : Nat}

/-- A greater magnitude is more units among the rationals too. -/
theorem units_lt (less : other < bits) : (unitsOfBits other : ℚ) < unitsOfBits bits :=
  Nat.cast_lt.mpr (strictMono_unitsOfBits less)

/-- The nearest magnitude does not decrease where the number increases. -/
theorem le (near : Nearest first bits) (other_near : Nearest second other)
    (order : first ≤ second) : bits ≤ other := by
  by_contra! less
  have lower := near.below other less
  have upper := other_near.above bits less
  have tie : 2 * first = (unitsOfBits bits + unitsOfBits other : ℚ) := by linarith
  have other_tie : 2 * second = (unitsOfBits other + unitsOfBits bits : ℚ) := by linarith
  -- Both are even, so there is a magnitude between them that is nearer.
  obtain ⟨half, rfl⟩ := near.even other less.ne tie
  obtain ⟨other_half, rfl⟩ := other_near.even _ less.ne' other_tie
  have between : other_half + other_half + 1 < half + half := by omega
  have nearer := near.below _ between
  have greater := units_lt (Nat.lt_succ_self (other_half + other_half))
  linarith

/-- A number has at most one nearest magnitude. -/
theorem eq (near : Nearest number bits) (other_near : Nearest number other) : bits = other :=
  Nat.le_antisymm (near.le other_near le_rfl) (other_near.le near le_rfl)

/-- A magnitude nearest to two numbers is nearest to every number between them. -/
theorem of_between (near_first : Nearest first bits) (near_second : Nearest second bits)
    (above : first ≤ number) (below : number ≤ second) : Nearest number bits where
  below := by
    intro other less
    have lower := near_first.below other less
    linarith
  above := by
    intro other greater
    have upper := near_second.above other greater
    linarith
  even := by
    intro other distinct tie
    rcases Nat.lt_or_gt_of_ne distinct with less | greater
    · have lower := near_first.below other less
      exact near_first.even other distinct (by linarith)
    · have upper := near_second.above other greater
      exact near_second.even other distinct (by linarith)

/-- A magnitude is nearest to itself. -/
theorem self (bits : Nat) : Nearest (unitsOfBits bits) bits where
  below := by
    intro other less
    have lower := units_lt less
    linarith
  above := by
    intro other greater
    have upper := units_lt greater
    linarith
  even := by
    intro other distinct tie
    have same : unitsOfBits other = unitsOfBits bits := by
      have same : (unitsOfBits other : ℚ) = unitsOfBits bits := by linarith
      exact_mod_cast same
    exact (distinct (strictMono_unitsOfBits.injective same)).elim

/-- It is enough that the number is between the midpoints to the neighbours. -/
theorem of_neighbours
    (below : ∀ other, other + 1 = bits → (unitsOfBits other + unitsOfBits bits : ℚ) ≤ 2 * number)
    (above : 2 * number ≤ (unitsOfBits bits + unitsOfBits (bits + 1) : ℚ))
    (even_below : ∀ other, other + 1 = bits →
      2 * number = (unitsOfBits other + unitsOfBits bits : ℚ) → Even bits)
    (even_above : 2 * number = (unitsOfBits bits + unitsOfBits (bits + 1) : ℚ) → Even bits) :
    Nearest number bits := by
  have lower (other : Nat) (less : other < bits) : other + 1 = bits ∨
      (unitsOfBits other + unitsOfBits bits : ℚ) < 2 * number := by
    rcases Nat.lt_or_eq_of_le (Nat.succ_le_of_lt less) with further | next
    · obtain ⟨last, rfl⟩ : ∃ last, bits = last + 1 := ⟨bits - 1, by omega⟩
      have midpoint := below last rfl
      have smaller : (unitsOfBits other : ℚ) < unitsOfBits last := units_lt (by omega)
      exact .inr (by linarith)
    · exact .inl next
  have upper (other : Nat) (greater : bits < other) : bits + 1 = other ∨
      2 * number < (unitsOfBits bits + unitsOfBits other : ℚ) := by
    rcases Nat.lt_or_eq_of_le (Nat.succ_le_of_lt greater) with further | next
    · have larger : (unitsOfBits (bits + 1) : ℚ) < unitsOfBits other := units_lt further
      exact .inr (by linarith)
    · exact .inl next
  constructor
  · intro other less
    exact (lower other less).elim (below other) le_of_lt
  · intro other greater
    rcases upper other greater with rfl | apart
    · exact above
    · exact apart.le
  · intro other distinct tie
    rcases Nat.lt_or_gt_of_ne distinct with less | greater
    · rcases lower other less with next | apart
      · exact even_below other next (by linarith)
      · linarith
    · rcases upper other greater with rfl | apart
      · exact even_above tie
      · linarith

end Nearest

end LoxLexer.Binary64
