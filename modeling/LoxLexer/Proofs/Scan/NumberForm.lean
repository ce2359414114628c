import Mathlib.Data.List.DropRight
import LoxLexer.Proofs.Scan.Number

/-! # Forms of numbers

A number is written in plain form, as digits around a point, or in exponent form, as a numeral with
one digit before its point and a power of ten. A text has at most one form
(`NumberForm.eq_of_text`), so it tells the number. The significant digits of a form are no more than
those of any other way to write the same number (`Numeral.precision_le`). -/

namespace LoxLexer

namespace Numeral

/-- All digits of the numeral. -/
def digits (numeral : Numeral) : List Char :=
  numeral.whole ++ numeral.fraction

/-- The digits without the zeros at either end. -/
def significant (numeral : Numeral) : List Char :=
  (numeral.digits.dropWhile (· == '0')).rdropWhile (· == '0')

/-- The number of significant digits. -/
def precision (numeral : Numeral) : Nat :=
  numeral.significant.length

end Numeral

/-- The two ways in which a number is written. -/
inductive NumberForm where
  /-- Digits around a point. -/
  | plain (numeral : Numeral)
  /-- A numeral with one digit before its point, if it has one, and a power of ten. -/
  | exponent (numeral : Numeral) (power : Int)
  deriving DecidableEq, Repr

namespace NumberForm

def numeral : NumberForm → Numeral
  | plain numeral => numeral
  | exponent numeral _ => numeral

def isPlain : NumberForm → Bool
  | plain _ => true
  | exponent _ _ => false

/-- The number as it is written. -/
def text : NumberForm → List Char
  | plain numeral => numeral.text
  | exponent numeral power => numeral.text ++ 'e' :: (toString power).toList

/-- The number that is written. -/
def rational : NumberForm → ℚ
  | plain numeral => numeral.rational
  | exponent numeral power => numeral.rational * 10 ^ power

/-- Digits are where the form asks for them. -/
def IsProper : NumberForm → Prop
  | plain numeral => numeral.IsProper ∧ numeral.fraction ≠ []
  | exponent numeral _ => numeral.IsProper ∧ numeral.whole.length = 1

end NumberForm

/-! ## Digits of a number -/

theorem isDigit_toDigits (count : Nat) : ∀ c ∈ Nat.toDigits 10 count, c.isDigit = true :=
  fun _ member => Nat.isDigit_of_mem_toDigits (by decide) (by decide) member

/-- The digits of a natural number stand for it. -/
theorem Numeral.digitsValue_toDigits (count : Nat) :
    digitsValue (Nat.toDigits 10 count) = count :=
  Nat.ofDigitChars_ten_toDigits

/-! ## Significant digits -/

namespace Numeral
variable {numeral : Numeral}

theorem IsProper.isDigit (proper : numeral.IsProper) : ∀ c ∈ numeral.digits, c.isDigit = true := by
  intro c member
  rcases List.mem_append.mp member with before | after
  · exact proper.whole_digit c before
  · exact proper.fraction_digit c after

/-- Zeros in front count nothing. -/
theorem digitsValue_dropWhile_zero (digits : List Char) :
    digitsValue (digits.dropWhile (· == '0')) = digitsValue digits := by
  induction digits with
  | nil => rfl
  | cons c rest ih =>
      rw [List.dropWhile_cons]
      split
      · rename_i zero
        obtain rfl : c = '0' := by simpa using zero
        exact ih
      · rfl

/-- Zeros at the end are powers of ten. -/
theorem exists_digitsValue_rdropWhile_zero (digits : List Char) :
    ∃ zeros, digitsValue digits =
      digitsValue (digits.rdropWhile (· == '0')) * 10 ^ zeros := by
  have zeros_eq : digits.rtakeWhile (· == '0') =
      List.replicate (digits.rtakeWhile (· == '0')).length '0' :=
    List.eq_replicate_of_mem fun c member => by simpa using List.mem_rtakeWhile_imp member
  refine ⟨(digits.rtakeWhile (· == '0')).length, ?_⟩
  have parts : digits.rdropWhile (· == '0') ++ digits.rtakeWhile (· == '0') = digits :=
    List.rdropWhile_append_rtakeWhile
  have none_after : digitsValue (digits.rtakeWhile (· == '0')) = 0 := by
    rw [zeros_eq, digitsValue_replicate_zero]
  calc digitsValue digits
      = digitsValue (digits.rdropWhile (· == '0') ++ digits.rtakeWhile (· == '0')) := by
        rw [parts]
    _ = digitsValue (digits.rdropWhile (· == '0')) *
          10 ^ (digits.rtakeWhile (· == '0')).length := by
        rw [digitsValue_append, none_after, Nat.add_zero, Nat.mul_comm]

/-- A digit that is not zero counts from one to nine. -/
theorem digitsValue_singleton {c : Char} (digit : c.isDigit = true)
    (not_zero : ¬ (c == '0') = true) : 1 ≤ digitsValue [c] ∧ digitsValue [c] ≤ 9 := by
  obtain ⟨above, below⟩ := Bool.and_eq_true_iff.mp digit
  have first : 48 ≤ c.toNat := UInt32.le_iff_toNat_le.mp (of_decide_eq_true above)
  have last : c.toNat ≤ 57 := UInt32.le_iff_toNat_le.mp (of_decide_eq_true below)
  have distinct : c.toNat ≠ 48 := fun zero => not_zero (beq_iff_eq.mpr (Char.toNat_inj.mp zero))
  have value : digitsValue [c] = 10 * 0 + (c.toNat - 48) := rfl
  omega

theorem IsProper.isDigit_significant (proper : numeral.IsProper) :
    ∀ c ∈ numeral.significant, c.isDigit = true := fun c member =>
  proper.isDigit c ((List.dropWhile_sublist _).mem ((List.rdropWhile_prefix _ _).mem member))

/-- The first significant digit is not zero. -/
theorem IsProper.le_digitsValue (proper : numeral.IsProper)
    (some_digits : numeral.significant ≠ []) :
    10 ^ (numeral.precision - 1) ≤ digitsValue numeral.significant := by
  obtain ⟨first, rest, significant_eq⟩ := List.exists_cons_of_ne_nil some_digits
  have digit : first.isDigit = true := by
    apply proper.isDigit_significant
    rw [significant_eq]
    exact List.mem_cons_self
  have not_zero : ¬ (first == '0') = true := by
    obtain ⟨zeros, trimmed⟩ : numeral.significant <+: numeral.digits.dropWhile (· == '0') :=
      List.rdropWhile_prefix _ _
    rw [significant_eq] at trimmed
    have outside := eq_false_of_mem_head?_dropWhile (p := (· == '0')) numeral.digits first
    rw [← trimmed] at outside
    exact ne_true_of_eq_false (outside rfl)
  have counts := (digitsValue_singleton digit not_zero).1
  unfold precision
  rw [significant_eq]
  calc 10 ^ ((first :: rest).length - 1)
      ≤ 10 ^ rest.length * digitsValue [first] := Nat.le_mul_of_pos_right _ counts
    _ ≤ 10 ^ rest.length * digitsValue [first] + digitsValue rest := Nat.le_add_right _ _
    _ = digitsValue (first :: rest) := (digitsValue_append [first] rest).symm

/-- The last significant digit is not zero. -/
theorem IsProper.not_dvd_digitsValue (proper : numeral.IsProper)
    (some_digits : numeral.significant ≠ []) : ¬ 10 ∣ digitsValue numeral.significant := by
  have digit : (numeral.significant.getLast some_digits).isDigit = true :=
    proper.isDigit_significant _ (List.getLast_mem some_digits)
  have counts := digitsValue_singleton digit (List.rdropWhile_last_not _ _ some_digits)
  rw [← List.dropLast_append_getLast some_digits, digitsValue_append, List.length_singleton]
  omega

/-- A numeral has no more significant digits than any other way of writing its digits as a number
and a power of ten. -/
theorem IsProper.precision_le (proper : numeral.IsProper) {count power length : Nat}
    (same : digitsValue numeral.digits = count * 10 ^ power) (short : count < 10 ^ length) :
    numeral.precision ≤ length := by
  obtain ⟨zeros, value⟩ :=
    exists_digitsValue_rdropWhile_zero (numeral.digits.dropWhile (· == '0'))
  rw [digitsValue_dropWhile_zero, same] at value
  change count * 10 ^ power = digitsValue numeral.significant * 10 ^ zeros at value
  by_cases none_left : numeral.significant = []
  · unfold precision
    rw [none_left]
    exact Nat.zero_le _
  have large := proper.le_digitsValue none_left
  have not_dvd := proper.not_dvd_digitsValue none_left
  have fewer : power ≤ zeros := by
    by_contra! more
    obtain ⟨extra, rfl⟩ := Nat.exists_eq_add_of_lt more
    rw [Nat.add_assoc, Nat.pow_add, Nat.mul_left_comm, Nat.mul_comm (10 ^ zeros)] at value
    have whole := Nat.mul_right_cancel (Nat.pow_pos (by decide)) value
    rw [← whole, Nat.pow_succ] at not_dvd
    exact not_dvd ⟨count * 10 ^ extra, by ring⟩
  obtain ⟨extra, rfl⟩ := Nat.exists_eq_add_of_le fewer
  have count_eq : count = digitsValue numeral.significant * 10 ^ extra := by
    rw [Nat.pow_add, Nat.mul_left_comm, Nat.mul_comm] at value
    exact Nat.mul_left_cancel (Nat.pow_pos (by decide)) value
  have bound : 10 ^ (numeral.precision - 1) < 10 ^ length :=
    calc 10 ^ (numeral.precision - 1)
        ≤ digitsValue numeral.significant := large
      _ ≤ digitsValue numeral.significant * 10 ^ extra :=
          Nat.le_mul_of_pos_right _ (Nat.pow_pos (by decide))
      _ = count := count_eq.symm
      _ < 10 ^ length := short
  have shorter := (Nat.pow_lt_pow_iff_right (by decide)).mp bound
  omega

/-! ## A text has one form -/

/-- A text is that of one proper numeral at most. -/
theorem IsProper.eq_of_text {other : Numeral} (proper : numeral.IsProper)
    (other_proper : other.IsProper) (same : numeral.text = other.text) : numeral = other := by
  have pieces : Segment.lexeme (.number numeral) = .lexeme (.number other) :=
    Segment.IsProper.eq_of_text proper other_proper same
  exact Lexeme.number.inj (Segment.lexeme.inj pieces)

theorem IsProper.e_notMem (proper : numeral.IsProper) : 'e' ∉ numeral.text :=
  proper.notMem_text rfl (by decide)

end Numeral

namespace Power
variable {power other : Int}

/-- An integer is written with its digits, and a minus in front if it is negative. -/
theorem toList_toString (power : Int) :
    (toString power).toList =
      if 0 ≤ power then Nat.toDigits 10 power.toNat else '-' :: Nat.toDigits 10 (-power).toNat := by
  rw [Int.toString_eq_repr, Int.repr_eq_if]
  split
  · exact Nat.toList_repr
  · rw [String.toList_append, Nat.toList_repr]
    rfl

theorem minus_notMem_toDigits (count : Nat) : '-' ∉ Nat.toDigits 10 count := by
  intro member
  cases isDigit_toDigits count _ member

/-- The digits of a natural number tell it. -/
theorem eq_of_toDigits {count other : Nat} (same : Nat.toDigits 10 count = Nat.toDigits 10 other) :
    count = other :=
  calc count = Numeral.digitsValue (Nat.toDigits 10 count) :=
        (Numeral.digitsValue_toDigits count).symm
    _ = Numeral.digitsValue (Nat.toDigits 10 other) := by rw [same]
    _ = other := Numeral.digitsValue_toDigits other

/-- A power is told by its text. -/
theorem eq_of_toString (same : (toString power).toList = (toString other).toList) :
    power = other := by
  rw [toList_toString, toList_toString] at same
  by_cases nonneg : 0 ≤ power
  · rw [if_pos nonneg] at same
    by_cases other_nonneg : 0 ≤ other
    · rw [if_pos other_nonneg] at same
      have counts := eq_of_toDigits same
      omega
    · rw [if_neg other_nonneg] at same
      exact (minus_notMem_toDigits power.toNat (same ▸ List.mem_cons_self)).elim
  · rw [if_neg nonneg] at same
    by_cases other_nonneg : 0 ≤ other
    · rw [if_pos other_nonneg] at same
      exact (minus_notMem_toDigits other.toNat (same ▸ List.mem_cons_self)).elim
    · rw [if_neg other_nonneg] at same
      have counts := eq_of_toDigits (List.cons.inj same).2
      omega

end Power

namespace NumberForm

theorem text_exponent (numeral : Numeral) (power : Int) :
    (exponent numeral power).text = numeral.text ++ 'e' :: (toString power).toList :=
  rfl

theorem isProper_numeral {form : NumberForm} (proper : form.IsProper) : form.numeral.IsProper := by
  cases form with
  | plain numeral => exact proper.1
  | exponent numeral power => exact proper.1

/-- The exponent form is told by its letter. -/
theorem e_mem_text_iff {form : NumberForm} (proper : form.IsProper) :
    'e' ∈ form.text ↔ form.isPlain = false := by
  cases form with
  | plain numeral => exact iff_of_false proper.1.e_notMem nofun
  | exponent numeral power =>
      rw [text_exponent]
      exact iff_of_true (List.mem_append_right _ List.mem_cons_self) rfl

/-- A text has one form. -/
theorem eq_of_text {form other : NumberForm} (proper : form.IsProper)
    (other_proper : other.IsProper) (same : form.text = other.text) : form = other := by
  have marked := e_mem_text_iff proper
  rw [same, e_mem_text_iff other_proper] at marked
  cases form with
  | plain numeral =>
      cases other with
      | plain other_numeral => exact congrArg plain (proper.1.eq_of_text other_proper.1 same)
      | exponent other_numeral other_power => cases marked.mp rfl
  | exponent numeral power =>
      cases other with
      | plain other_numeral => cases marked.mpr rfl
      | exponent other_numeral other_power =>
          rw [text_exponent, text_exponent] at same
          obtain ⟨texts, powers⟩ :=
            append_cons_inj proper.1.e_notMem other_proper.1.e_notMem same
          rw [proper.1.eq_of_text other_proper.1 texts,
            Power.eq_of_toString powers]

end NumberForm

end LoxLexer
