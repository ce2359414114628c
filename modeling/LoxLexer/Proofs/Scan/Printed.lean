import LoxLexer.Proofs.Binary64.Shortest
import LoxLexer.Proofs.Scan.NumberForm

/-! # Printed numbers

A printed number reads back as the double it was printed from and has no more significant digits
than any decimal that does (`printed_number`). It is in plain form where it is zero or neither small
nor large, and then a scan of it is the one token with its bits. -/

namespace LoxLexer

namespace NumberForm

def power : NumberForm → Int
  | plain _ => 0
  | exponent _ power => power

/-- The form writes the decimal: the same number, by the digits of the decimal and zeros. -/
structure Writes (form : NumberForm) (d : Decimal) : Prop where
  isProper : form.IsProper
  rational : form.rational = d.value
  digits : ∃ zeros, Numeral.digitsValue form.numeral.digits = d.digits * 10 ^ zeros

/-- The number of a form is what its digits stand for, times a power of ten. -/
theorem rational_eq (form : NumberForm) :
    form.rational = Numeral.digitsValue form.numeral.digits *
      10 ^ (form.power - form.numeral.fraction.length) := by
  have numeral_eq (numeral : Numeral) : numeral.rational =
      Numeral.digitsValue numeral.digits * 10 ^ (-(numeral.fraction.length : ℤ)) :=
    numeral.value_decimal.symm
  cases form with
  | plain numeral =>
      change numeral.rational = _ * 10 ^ (0 - (numeral.fraction.length : ℤ))
      rw [numeral_eq, zero_sub]
      rfl
  | exponent numeral power =>
      change numeral.rational * 10 ^ power = _ * 10 ^ (power - (numeral.fraction.length : ℤ))
      rw [numeral_eq, mul_assoc, ← zpow_add₀ (by norm_num), neg_add_eq_sub]
      rfl

/-- It is enough to count the zeros and the places. -/
theorem writes_of_digits {form : NumberForm} {d : Decimal} {zeros : Nat} (proper : form.IsProper)
    (digits : Numeral.digitsValue form.numeral.digits = d.digits * 10 ^ zeros)
    (places : zeros + (form.power - form.numeral.fraction.length) = d.exponent) :
    form.Writes d where
  isProper := proper
  rational := by
    rw [rational_eq, digits, Decimal.value, ← places, zpow_add₀ (by norm_num), zpow_natCast]
    push_cast
    ring
  digits := ⟨zeros, digits⟩

end NumberForm

namespace Numeral

/-- A numeral with a fraction is written around a point. -/
theorem text_of_fraction {whole fraction : List Char} (some_digits : fraction ≠ []) :
    (Numeral.mk whole fraction).text = whole ++ '.' :: fraction := by
  obtain ⟨digit, digits, rfl⟩ := List.exists_cons_of_ne_nil some_digits
  rfl

end Numeral

theorem isDigit_zeros (count : Nat) : ∀ c ∈ List.replicate count '0', c.isDigit = true := by
  intro c member
  rw [List.eq_of_mem_replicate member]
  rfl

namespace Decimal

/-- A whole number gets its zeros and one more after the point. -/
theorem exists_plain_whole (digits power : Nat) :
    ∃ numeral : Numeral, (Decimal.mk digits power).plain = numeral.text ∧
      (NumberForm.plain numeral).Writes ⟨digits, power⟩ := by
  refine ⟨⟨Nat.toDigits 10 digits ++ List.replicate power '0', ['0']⟩, ?_, ?_⟩
  · rw [Numeral.text_of_fraction (List.cons_ne_nil _ _)]
    unfold plain
    rw [if_pos (Int.natCast_nonneg power)]
    rfl
  · apply NumberForm.writes_of_digits
    · refine ⟨⟨?_, ?_, ?_⟩, List.cons_ne_nil _ _⟩
      · exact List.append_ne_nil_of_left_ne_nil Nat.toDigits_ne_nil _
      · exact List.forall_mem_append.mpr ⟨isDigit_toDigits digits, isDigit_zeros power⟩
      · exact isDigit_zeros 1
    · change Numeral.digitsValue ((Nat.toDigits 10 digits ++ List.replicate power '0') ++
        List.replicate 1 '0') = digits * 10 ^ (power + 1)
      rw [List.append_assoc, List.replicate_append_replicate, Numeral.digitsValue_append,
        Numeral.digitsValue_replicate_zero, Numeral.digitsValue_toDigits, List.length_replicate,
        Nat.add_zero, Nat.mul_comm]
    · change ((power + 1 : Nat) : ℤ) + (0 - 1) = power
      omega

/-- Places are taken from the end of the digits, with zeros before them if there are too few. -/
theorem exists_plain_places (digits : Nat) {places : Nat} (some_places : 0 < places) :
    ∃ numeral : Numeral, (Decimal.mk digits (-places)).plain = numeral.text ∧
      (NumberForm.plain numeral).Writes ⟨digits, -places⟩ := by
  have negative : ¬ (0 : ℤ) ≤ -places := by omega
  have places_eq : (-(-(places : ℤ))).toNat = places := by omega
  obtain ⟨padded, padded_eq⟩ : ∃ padded, padded =
      List.replicate (places + 1 - (Nat.toDigits 10 digits).length) '0' ++ Nat.toDigits 10 digits :=
    ⟨_, rfl⟩
  have long : places + 1 ≤ padded.length := by
    rw [padded_eq, List.length_append, List.length_replicate]
    omega
  have padded_digit : ∀ c ∈ padded, c.isDigit = true := by
    rw [padded_eq]
    exact List.forall_mem_append.mpr ⟨isDigit_zeros _, isDigit_toDigits digits⟩
  have fraction_length : (padded.drop (padded.length - places)).length = places := by
    rw [List.length_drop]
    omega
  have some_digits : padded.drop (padded.length - places) ≠ [] := by
    rw [← List.length_pos_iff, fraction_length]
    exact some_places
  refine ⟨⟨padded.take (padded.length - places), padded.drop (padded.length - places)⟩, ?_, ?_⟩
  · rw [Numeral.text_of_fraction some_digits]
    unfold plain
    simp only [if_neg negative, places_eq, ← padded_eq]
  · apply NumberForm.writes_of_digits
    · refine ⟨⟨?_, ?_, ?_⟩, some_digits⟩
      · rw [← List.length_pos_iff, List.length_take]
        omega
      · exact fun c member => padded_digit c (List.mem_of_mem_take member)
      · exact fun c member => padded_digit c (List.mem_of_mem_drop member)
    · change Numeral.digitsValue (padded.take _ ++ padded.drop _) = digits * 10 ^ 0
      rw [List.take_append_drop, padded_eq, Numeral.digitsValue_append,
        Numeral.digitsValue_replicate_zero, Numeral.digitsValue_toDigits, Nat.mul_zero,
        Nat.zero_add, Nat.pow_zero, Nat.mul_one]
    · change ((0 : Nat) : ℤ) + (0 - ((padded.drop (padded.length - places)).length : ℤ)) = -places
      rw [fraction_length]
      omega

/-- Plain form writes the decimal with digits on both sides of a point. -/
theorem exists_plain (d : Decimal) :
    ∃ numeral : Numeral, d.plain = numeral.text ∧ (NumberForm.plain numeral).Writes d := by
  obtain ⟨digits, exponent⟩ := d
  rcases lt_or_ge exponent 0 with fractional | whole
  · obtain ⟨places, rfl⟩ := Int.exists_eq_neg_ofNat fractional.le
    exact exists_plain_places digits (by omega)
  · obtain ⟨power, rfl⟩ := Int.eq_ofNat_of_zero_le whole
    exact exists_plain_whole digits power

/-- Exponent form writes the decimal with one digit before the point, if there are more. -/
theorem exists_scientific (d : Decimal) :
    ∃ numeral power, d.scientific = (NumberForm.exponent numeral power).text ∧
      (NumberForm.exponent numeral power).Writes d := by
  obtain ⟨first, fraction, digits_eq⟩ :=
    List.exists_cons_of_ne_nil (Nat.toDigits_ne_nil (n := d.digits) (b := 10))
  have digit := isDigit_toDigits d.digits
  rw [digits_eq] at digit
  refine ⟨⟨[first], fraction⟩, d.exponent + fraction.length, ?_, ?_⟩
  · unfold scientific
    rw [digits_eq, NumberForm.text_exponent]
    cases fraction <;> rfl
  · apply NumberForm.writes_of_digits
    · refine ⟨⟨List.cons_ne_nil _ _, ?_, ?_⟩, rfl⟩
      · exact List.forall_mem_singleton.mpr (digit first List.mem_cons_self)
      · exact fun c member => digit c (List.mem_cons_of_mem first member)
    · change Numeral.digitsValue (first :: fraction) = d.digits * 10 ^ 0
      rw [← digits_eq, Numeral.digitsValue_toDigits, Nat.pow_zero, Nat.mul_one]
    · change ((0 : Nat) : ℤ) + (d.exponent + fraction.length - (fraction.length : ℤ)) = d.exponent
      omega

end Decimal

namespace Binary64
variable {x : Binary64}

/-- Whether a number reaches a power of ten can be told in units of the last decimal place. -/
theorem le_decimalUnits_iff (unsigned : x.isNegative = false) (place : Nat) :
    Nat.pow 10 place ≤ x.decimalUnits ↔ (10 : ℚ) ^ ((place : ℤ) - 1074) ≤ x.value := by
  rw [ten_zpow_sub, value_eq_decimalUnits unsigned, mul_le_mul_iff_of_pos_right finest_pos,
    Nat.pow_eq]
  exact_mod_cast Iff.rfl

/-- Plain form is for zero and for numbers that are neither small nor large. -/
theorem isPlain_iff (unsigned : x.isNegative = false) :
    x.isPlain = true ↔ x.value = 0 ∨ 1 / 10 ^ 4 ≤ x.value ∧ x.value < 10 ^ 16 := by
  have zero : x.magnitude = 0 ↔ x.value = 0 := by
    rw [value_of_unsigned unsigned, ← amount_zero]
    exact strictMono_amount.injective.eq_iff.symm
  unfold isPlain
  generalize low_eq : 1070 = low
  generalize high_eq : 1090 = high
  have low_power : (low : ℤ) - 1074 = -4 := by omega
  have high_power : (high : ℤ) - 1074 = 16 := by omega
  have small := le_decimalUnits_iff unsigned low
  have large := le_decimalUnits_iff unsigned high
  rw [low_power, zpow_neg, zpow_ofNat, ← one_div] at small
  rw [high_power, zpow_ofNat] at large
  rw [Bool.or_eq_true, Bool.and_eq_true, beq_iff_eq, decide_eq_true_iff, decide_eq_true_iff, zero,
    small, ← Nat.not_le, large, not_le]

/-- A finite number without a sign is printed as its magnitude. -/
theorem printed_eq (finite : x.IsFinite) (unsigned : x.isNegative = false) :
    x.printed = String.ofList x.printedMagnitude := by
  have number : x.isNaN = false := decide_eq_false (Nat.not_lt.mpr finite.le)
  have bounded : x.isInfinite = false := beq_eq_false_iff_ne.mpr finite.ne
  unfold printed
  rw [number, unsigned, bounded]
  rfl

/-- The printed magnitude has the form that its size asks for and writes the shortest decimal. -/
theorem exists_form_printedMagnitude (x : Binary64) :
    ∃ form : NumberForm, x.printedMagnitude = form.text ∧ form.isPlain = x.isPlain ∧
      form.Writes x.shortest := by
  unfold printedMagnitude
  cases plain : x.isPlain with
  | true =>
      obtain ⟨numeral, text, writes⟩ := x.shortest.exists_plain
      exact ⟨.plain numeral, text, rfl, writes⟩
  | false =>
      obtain ⟨numeral, power, text, writes⟩ := x.shortest.exists_scientific
      exact ⟨.exponent numeral power, text, rfl, writes⟩

end Binary64

/-- A printed double reads back as itself and is shortest: its text has one form, the number that
the form writes rounds to the double, and no decimal with fewer significant digits does. The form is
plain for zero and from `10 ^ -4` to below `10 ^ 16`; a scan of a text in plain form is the one
number token with the double as its literal. -/
theorem printed_number {x : Binary64} (finite : x.IsFinite) (unsigned : x.isNegative = false) :
    ∃ form : NumberForm, form.IsProper ∧ (Literal.number x).text = String.ofList form.text ∧
      (∀ other : NumberForm, other.IsProper → other.text = form.text → other = form) ∧
      x.IsRounded form.rational ∧
      (0 < x.value → ∀ (length digits : Nat) (power : ℤ), digits < 10 ^ length →
        x.IsRounded (digits * 10 ^ power) → form.numeral.precision ≤ length) ∧
      (form.isPlain = true ↔ x.value = 0 ∨ 1 / 10 ^ 4 ≤ x.value ∧ x.value < 10 ^ 16) ∧
      (form.isPlain = true → (scan (Literal.number x).text).1 =
        .ok [⟨.number, (Literal.number x).text, some (.number x), 1⟩, .eof 1]) := by
  obtain ⟨form, text, plain, proper, rational, zeros, digits⟩ := x.exists_form_printedMagnitude
  have printed : (Literal.number x).text = String.ofList form.text := by
    rw [← text]
    exact Binary64.printed_eq finite unsigned
  have rounded : x.IsRounded form.rational := by
    rw [rational]
    exact Binary64.isRounded_shortest finite unsigned
  refine ⟨form, proper, printed, fun other other_proper same =>
    NumberForm.eq_of_text other_proper proper same, rounded, ?_, ?_, ?_⟩
  · intro more length count power short reads
    have positive : 0 < x.magnitude := by
      rw [Nat.pos_iff_ne_zero]
      intro none
      rw [Binary64.value_of_unsigned unsigned, none, Binary64.amount_zero] at more
      exact lt_irrefl _ more
    exact (NumberForm.isProper_numeral proper).precision_le digits
      (Binary64.shortest_digits_lt finite unsigned positive short reads)
  · rw [plain]
    exact Binary64.isPlain_iff unsigned
  · intro in_plain
    cases form with
    | exponent numeral power => cases in_plain
    | plain numeral =>
        have value : numeral.value = x := numeral.isRounded_value.eq rounded
        rw [printed, ← value]
        exact scan_numeral proper.1

/-- The double nearest to `0.3` prints as that, and not by the digits of its exact value. -/
theorem printed_number_at_three_tenths :
    (Binary64.mk 0x3FD3333333333333).IsFinite ∧
    (Binary64.mk 0x3FD3333333333333).isNegative = false ∧
    (Literal.number ⟨0x3FD3333333333333⟩).text = "0.3" ∧
    ∃ form : NumberForm, "0.3" = String.ofList form.text ∧
      (Binary64.mk 0x3FD3333333333333).IsRounded form.rational := by
  have finite : (Binary64.mk 0x3FD3333333333333).magnitude < Binary64.infinityBits := by decide
  have unsigned : (Binary64.mk 0x3FD3333333333333).isNegative = false := by decide
  have text : (Literal.number ⟨0x3FD3333333333333⟩).text = "0.3" := by decide +kernel
  obtain ⟨form, -, printed, -, rounded, -⟩ := printed_number finite unsigned
  rw [text] at printed
  exact ⟨finite, unsigned, text, form, printed, rounded⟩

end LoxLexer
