import LoxLexer.Binary64.Shortest
import LoxLexer.Proofs.Binary64.Nearest

/-! # The shortest decimal is shortest

The decimal of the search rounds to the double (`Binary64.isRounded_shortest`), and no decimal with
fewer digits does (`Binary64.shortest_digits_lt`). The numbers that round to a double have no gaps
(`Binary64.IsRounded.of_between`), so on each grid the neighbours of the double decide whether any
point rounds to it, and on a grid coarser than that of the hit none does. A decimal with fewer
digits would leave such a point between itself and the hit. -/

namespace LoxLexer.Binary64
variable {x : Binary64} {number first second : ℚ} {place count : Nat}

/-! ## The numbers that round to a double -/

section Rounded
variable (finite : x.IsFinite) (unsigned : x.isNegative = false)
include finite unsigned

/-- A number is rounded to a double if and only if its magnitude is nearest by the midpoints. -/
theorem isRounded_iff_nearest (nonneg : 0 ≤ number) :
    x.IsRounded number ↔ Nearest (number * unitsPerOne) x.magnitude := by
  constructor
  · intro rounded
    rcases lt_or_ge number overflow with below | order
    · exact (rounded.nearest below).nearest below
    · have beyond := finite
      rw [IsFinite, rounded.infinite order, infinity, magnitude_ofMagnitude, Nat.min_self] at beyond
      exact absurd beyond (Nat.lt_irrefl _)
  · intro near
    have same : ofMagnitude x.magnitude = x :=
      eq_of_magnitude (isNegative_ofMagnitude _) unsigned
        ((magnitude_ofMagnitude _).trans (Nat.min_eq_left finite.le))
    rw [← same]
    exact isRounded_ofMagnitude nonneg near

theorem isRounded_self : x.IsRounded x.value := by
  have nonneg : 0 ≤ x.value := (value_of_unsigned unsigned).symm ▸ amount_nonneg _
  rw [isRounded_iff_nearest finite unsigned nonneg, value_of_unsigned unsigned, amount,
    div_mul_cancel₀ _ unitsPerOne_pos.ne']
  exact Nearest.self x.magnitude

/-- Between two numbers that round to the double every number does. -/
theorem IsRounded.of_between (nonneg : 0 ≤ first) (rounded : x.IsRounded first)
    (other_rounded : x.IsRounded second) (lower : first ≤ number) (upper : number ≤ second) :
    x.IsRounded number := by
  have number_nonneg := nonneg.trans lower
  rw [isRounded_iff_nearest finite unsigned nonneg] at rounded
  rw [isRounded_iff_nearest finite unsigned (number_nonneg.trans upper)] at other_rounded
  rw [isRounded_iff_nearest finite unsigned number_nonneg]
  exact rounded.of_between other_rounded
    (mul_le_mul_of_nonneg_right lower unitsPerOne_pos.le)
    (mul_le_mul_of_nonneg_right upper unitsPerOne_pos.le)

/-- What rounds to a positive double is positive. -/
theorem IsRounded.pos (nonneg : 0 ≤ number) (positive : 0 < x.magnitude)
    (rounded : x.IsRounded number) : 0 < number := by
  obtain ⟨below, -⟩ :=
    nearest_mul_unitsPerOne.mp ((isRounded_iff_nearest finite unsigned nonneg).mp rounded)
  have more := strictMono_amount positive
  linarith [below 0 positive, amount_zero]

/-- Nothing from three halves of a double on rounds to it. -/
theorem IsRounded.le_value (nonneg : 0 ≤ number) (positive : 0 < x.magnitude)
    (rounded : x.IsRounded number) : 2 * number ≤ 3 * x.value := by
  obtain ⟨-, above, -⟩ :=
    nearest_mul_unitsPerOne.mp ((isRounded_iff_nearest finite unsigned nonneg).mp rounded)
  have next : amount (x.magnitude + 1) ≤ 2 * amount x.magnitude := by
    unfold amount
    rw [← mul_div_assoc]
    refine div_le_div_of_nonneg_right ?_ unitsPerOne_pos.le
    exact_mod_cast unitsOfBits_succ_le positive
  have upper := above (x.magnitude + 1) (Nat.lt_succ_self _)
  rw [value_of_unsigned unsigned]
  linarith

end Rounded

/-! ## Grids -/

/-- The step of the finest grid. -/
def finest : ℚ :=
  10 ^ (-1074 : ℤ)

theorem finest_pos : 0 < finest :=
  zpow_pos (by norm_num) _

/-- The step of a grid. -/
theorem ten_zpow_sub (place : Nat) : (10 : ℚ) ^ ((place : ℤ) - 1074) = 10 ^ place * finest := by
  unfold finest
  rw [sub_eq_add_neg, zpow_add₀ (by norm_num), zpow_natCast]

/-- A point of a grid is so many of the finest steps. -/
theorem value_gridPoint (place count : Nat) :
    (gridPoint place count).value = (count * 10 ^ place : Nat) * finest := by
  unfold Decimal.value gridPoint
  rw [ten_zpow_sub, Nat.cast_mul, Nat.cast_pow, Nat.cast_ofNat, mul_assoc]

theorem value_gridPoint_nonneg (place count : Nat) : 0 ≤ (gridPoint place count).value :=
  Decimal.value_nonneg _

/-- A double is on the finest grid. -/
theorem value_eq_decimalUnits (unsigned : x.isNegative = false) :
    x.value = x.decimalUnits * finest := by
  rw [value_of_unsigned unsigned]
  unfold amount decimalUnits finest units
  rw [cast_unitsPerOne, zpow_neg, zpow_ofNat]
  generalize 1074 = places
  have ten : (10 : ℚ) = 2 * 5 := by norm_num
  rw [ten, mul_pow, Nat.pow_eq, Nat.cast_mul, Nat.cast_pow, Nat.cast_ofNat]
  field_simp

/-- Points of two grids are in the order of their numbers of finest steps. -/
theorem gridPoint_le_iff {other_place other_count : Nat} :
    (gridPoint place count).value ≤ (gridPoint other_place other_count).value ↔
      count * 10 ^ place ≤ other_count * 10 ^ other_place := by
  rw [value_gridPoint, value_gridPoint, mul_le_mul_iff_of_pos_right finest_pos, Nat.cast_le]

/-- A double without a sign is read from the decimals whose values are rounded to it. -/
theorem isReadFrom_iff (unsigned : x.isNegative = false) {d : Decimal} :
    x.isReadFrom d = true ↔ x.IsRounded d.value := by
  rw [isRounded_iff]
  unfold isReadFrom
  rw [beq_iff_eq]
  constructor
  · intro same
    exact eq_of_magnitude unsigned (isRounded_nearest d).isNegative_eq_false same.symm
  · rintro rfl
    rfl

/-! ## The neighbours on a grid -/

/-- What is found on a grid rounds to the double, and where nothing is found neither neighbour
does. -/
theorem shortestAt?_cases (x : Binary64) (place : Nat) :
    (∃ count, x.shortestAt? place = some (gridPoint place count) ∧
      x.isReadFrom (gridPoint place count) = true) ∨
    (x.shortestAt? place = none ∧
      x.isReadFrom (gridPoint place (x.decimalUnits / 10 ^ place)) = false ∧
      x.isReadFrom (gridPoint place (x.decimalUnits / 10 ^ place + 1)) = false) := by
  unfold shortestAt?
  simp only [Nat.pow_eq]
  generalize x.decimalUnits / 10 ^ place = below
  cases lower_reads : x.isReadFrom (gridPoint place below) with
  | true =>
      left
      rw [if_pos rfl]
      split
      · rename_i further
        exact ⟨below + 1, rfl, (Bool.and_eq_true_iff.mp further).1⟩
      · exact ⟨below, rfl, lower_reads⟩
  | false =>
      rw [if_neg Bool.false_ne_true]
      cases upper_reads : x.isReadFrom (gridPoint place (below + 1)) with
      | true =>
          rw [if_pos rfl]
          exact .inl ⟨below + 1, rfl, upper_reads⟩
      | false =>
          rw [if_neg Bool.false_ne_true]
          exact .inr ⟨rfl, rfl, rfl⟩

section Search
variable (finite : x.IsFinite) (unsigned : x.isNegative = false)
include finite unsigned

/-- On the finest grid there is a point that rounds to the double: its own value. -/
theorem isRounded_finest : x.IsRounded (gridPoint 0 x.decimalUnits).value := by
  rw [value_gridPoint, pow_zero, Nat.mul_one, ← value_eq_decimalUnits unsigned]
  exact isRounded_self finite unsigned

/-- If any point of a grid rounds to a double, one of its two neighbours on the grid does. -/
theorem isRounded_neighbour (rounded : x.IsRounded (gridPoint place count).value) :
    x.IsRounded (gridPoint place (x.decimalUnits / 10 ^ place)).value ∨
      x.IsRounded (gridPoint place (x.decimalUnits / 10 ^ place + 1)).value := by
  have step_pos : 0 < 10 ^ place := Nat.pow_pos (Nat.succ_pos 9)
  have self := isRounded_finest finite unsigned
  have lower : (gridPoint place (x.decimalUnits / 10 ^ place)).value ≤
      (gridPoint 0 x.decimalUnits).value := by
    rw [gridPoint_le_iff, pow_zero, Nat.mul_one]
    exact Nat.div_mul_le_self _ _
  have upper : (gridPoint 0 x.decimalUnits).value ≤
      (gridPoint place (x.decimalUnits / 10 ^ place + 1)).value := by
    rw [gridPoint_le_iff, pow_zero, Nat.mul_one]
    exact (Nat.lt_mul_of_div_lt (Nat.lt_succ_self _) step_pos).le
  rcases Nat.lt_or_ge (x.decimalUnits / 10 ^ place) count with above | below
  · right
    refine self.of_between finite unsigned (value_gridPoint_nonneg _ _) rounded upper ?_
    rw [gridPoint_le_iff]
    exact Nat.mul_le_mul_right _ above
  · left
    refine rounded.of_between finite unsigned (value_gridPoint_nonneg _ _) self ?_ lower
    rw [gridPoint_le_iff]
    exact Nat.mul_le_mul_right _ below

/-- The search stops at a point that rounds to the double, on the coarsest of the grids it goes
through that have such a point. -/
theorem shortestFrom_spec (place : Nat) :
    ∃ found ≤ place, ∃ count, x.shortestFrom place = gridPoint found count ∧
      x.IsRounded (gridPoint found count).value ∧
      ∀ coarser, found < coarser → coarser ≤ place →
        ∀ other, ¬ x.IsRounded (gridPoint coarser other).value := by
  induction place with
  | zero =>
      exact ⟨0, le_rfl, x.decimalUnits, rfl, isRounded_finest finite unsigned,
        fun coarser finer within => by omega⟩
  | succ place ih =>
      unfold shortestFrom
      rcases x.shortestAt?_cases (place + 1) with ⟨count, hit, reads⟩ | ⟨miss, lower, upper⟩
      · rw [hit, Option.getD_some]
        exact ⟨place + 1, le_rfl, count, rfl, (isReadFrom_iff unsigned).mp reads,
          fun coarser finer within => by omega⟩
      · rw [miss, Option.getD_none]
        obtain ⟨found, finer, count, same, rounded, none_coarser⟩ := ih
        refine ⟨found, Nat.le_succ_of_le finer, count, same, rounded, ?_⟩
        intro coarser above within other other_rounded
        rcases Nat.lt_or_eq_of_le within with earlier | rfl
        · exact none_coarser coarser above (Nat.lt_succ_iff.mp earlier) other other_rounded
        · rcases isRounded_neighbour finite unsigned other_rounded with reads | reads
          · rw [← isReadFrom_iff unsigned, lower] at reads
            cases reads
          · rw [← isReadFrom_iff unsigned, upper] at reads
            cases reads

/-- Beyond the digits of a double no point of a grid rounds to it but zero to zero. -/
theorem not_isRounded_of_long (positive : 0 < x.magnitude)
    (long : (Nat.toDigits 10 x.decimalUnits).length < place) (count : Nat) :
    ¬ x.IsRounded (gridPoint place count).value := by
  intro rounded
  have point_pos := rounded.pos finite unsigned (value_gridPoint_nonneg _ _) positive
  have near := rounded.le_value finite unsigned (value_gridPoint_nonneg _ _) positive
  rw [value_gridPoint] at point_pos near
  rw [value_eq_decimalUnits unsigned, ← mul_assoc, ← mul_assoc,
    mul_le_mul_iff_of_pos_right finest_pos] at near
  have point_le : 2 * (count * 10 ^ place) ≤ 3 * x.decimalUnits := by exact_mod_cast near
  have count_pos : 0 < count := by
    rw [Nat.pos_iff_ne_zero]
    rintro rfl
    rw [Nat.zero_mul, Nat.cast_zero, zero_mul] at point_pos
    exact lt_irrefl _ point_pos
  have units_lt : x.decimalUnits < 10 ^ (Nat.toDigits 10 x.decimalUnits).length :=
    (Nat.length_toDigits_le_iff (by decide) Nat.length_toDigits_pos).mp le_rfl
  have longer : 10 * 10 ^ (Nat.toDigits 10 x.decimalUnits).length ≤ count * 10 ^ place := by
    calc 10 * 10 ^ (Nat.toDigits 10 x.decimalUnits).length
        = 10 ^ ((Nat.toDigits 10 x.decimalUnits).length + 1) := Nat.pow_succ'.symm
      _ ≤ 10 ^ place := Nat.pow_le_pow_right (by decide) long
      _ ≤ count * 10 ^ place := Nat.le_mul_of_pos_left _ count_pos
  omega

/-! ## The shortest decimal -/

/-- The shortest decimal is a point of the coarsest grid with a point that rounds to the double. -/
theorem shortest_spec (positive : 0 < x.magnitude) :
    ∃ place count, x.shortest = gridPoint place count ∧
      x.IsRounded (gridPoint place count).value ∧
      ∀ coarser, place < coarser → ∀ other, ¬ x.IsRounded (gridPoint coarser other).value := by
  obtain ⟨place, within, count, same, rounded, none_coarser⟩ :=
    shortestFrom_spec finite unsigned (Nat.toDigits 10 x.decimalUnits).length
  have shortest_eq : x.shortest = gridPoint place count := by
    unfold shortest
    rw [if_neg positive.ne', same]
  refine ⟨place, count, shortest_eq, rounded, ?_⟩
  intro coarser above other
  rcases Nat.lt_or_ge (Nat.toDigits 10 x.decimalUnits).length coarser with long | short
  · exact not_isRounded_of_long finite unsigned positive long other
  · exact none_coarser coarser above short other

/-- The shortest decimal of a double rounds to the double. -/
theorem isRounded_shortest : x.IsRounded x.shortest.value := by
  rcases Nat.eq_zero_or_pos x.magnitude with zero | positive
  · have shortest_eq : x.shortest.value = x.value := by
      rw [value_of_unsigned unsigned, zero, amount_zero]
      unfold shortest Decimal.value
      rw [if_pos zero, Nat.cast_zero, zero_mul]
    rw [shortest_eq]
    exact isRounded_self finite unsigned
  · obtain ⟨place, count, same, rounded, -⟩ := shortest_spec finite unsigned positive
    rw [same]
    exact rounded

/-- Where a decimal with few digits rounds to the double, the shortest decimal has no more. -/
theorem shortest_digits_lt (positive : 0 < x.magnitude) {length digits : Nat} {power : ℤ}
    (short : digits < 10 ^ length) (rounded : x.IsRounded (digits * 10 ^ power)) :
    x.shortest.digits < 10 ^ length := by
  obtain ⟨place, count, same, hit, none_coarser⟩ := shortest_spec finite unsigned positive
  rw [same]
  change count < 10 ^ length
  have decimal_nonneg : (0 : ℚ) ≤ digits * 10 ^ power := by positivity
  have decimal_pos := rounded.pos finite unsigned decimal_nonneg positive
  have finer : power ≤ place - 1074 := by
    by_contra! coarser
    obtain ⟨coarse, power_eq⟩ : ∃ coarse : Nat, power = coarse - 1074 :=
      ⟨(power + 1074).toNat, by omega⟩
    rw [power_eq] at rounded
    exact none_coarser coarse (by omega) digits rounded
  by_contra! long
  obtain ⟨last, rfl⟩ : ∃ last, length = last + 1 := by
    cases length with
    | zero =>
        obtain rfl : digits = 0 := by simpa using short
        simp at decimal_pos
    | succ last => exact ⟨last, rfl⟩
  -- The power of ten with one digit more is between the decimal and the hit.
  have between : x.IsRounded (gridPoint (place + 1) (10 ^ last)).value := by
    refine rounded.of_between finite unsigned decimal_nonneg hit ?_ ?_
    · have power_le : (10 : ℚ) ^ power ≤ 10 ^ ((place : ℤ) - 1074) :=
        zpow_le_zpow_right₀ (by norm_num) finer
      have digits_le : (digits : ℚ) ≤ 10 ^ (last + 1) := by exact_mod_cast short.le
      calc (digits : ℚ) * 10 ^ power
          ≤ 10 ^ (last + 1) * 10 ^ ((place : ℤ) - 1074) := by gcongr
        _ = (gridPoint (place + 1) (10 ^ last)).value := by
            rw [ten_zpow_sub, value_gridPoint]
            push_cast
            ring
    · rw [gridPoint_le_iff, ← Nat.pow_add, Nat.add_comm place, ← Nat.add_assoc, Nat.pow_add]
      exact Nat.mul_le_mul_right _ long
  exact none_coarser (place + 1) (Nat.lt_succ_self place) (10 ^ last) between

end Search

end LoxLexer.Binary64
