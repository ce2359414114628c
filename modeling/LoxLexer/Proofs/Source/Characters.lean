import Mathlib.Data.Char
import Mathlib.Tactic.Tauto
import LoxLexer.Source.Segment

/-! # Classes of characters

The classes of characters that a specification of Lox speaks of are given by their ranges in the
order of characters. They are the classes by which a source is cut (`isDigit_iff`, `isLetter_iff`,
`isWordCharacter_iff`). -/

namespace LoxLexer

/-- A character of `[0-9]`. -/
def IsDecimalDigit (c : Char) : Prop :=
  '0' ≤ c ∧ c ≤ '9'

/-- A character of `[A-Za-z_]`. -/
def IsWordStart (c : Char) : Prop :=
  ('A' ≤ c ∧ c ≤ 'Z') ∨ ('a' ≤ c ∧ c ≤ 'z') ∨ c = '_'

/-- A character of `[A-Za-z0-9_]`. -/
def IsWordPart (c : Char) : Prop :=
  ('A' ≤ c ∧ c ≤ 'Z') ∨ ('a' ≤ c ∧ c ≤ 'z') ∨ ('0' ≤ c ∧ c ≤ '9') ∨ c = '_'

instance : DecidablePred IsWordPart :=
  fun c => inferInstanceAs
    (Decidable (('A' ≤ c ∧ c ≤ 'Z') ∨ ('a' ≤ c ∧ c ≤ 'z') ∨ ('0' ≤ c ∧ c ≤ '9') ∨ c = '_'))

section
variable {c : Char}

/-- A blank is a space or a tab. -/
theorem isBlank_iff : isBlank c = true ↔ c = ' ' ∨ c = '\t' := by
  simp [isBlank]

/-- The digits are the characters of `[0-9]`. -/
theorem isDigit_iff : c.isDigit = true ↔ IsDecimalDigit c := by
  rw [Char.isDigit, Bool.and_eq_true, decide_eq_true_iff, decide_eq_true_iff]
  rfl

/-- The letters of words are the characters of `[A-Za-z_]`. -/
theorem isLetter_iff : isLetter c = true ↔ IsWordStart c := by
  have upper : c.isUpper = true ↔ 'A' ≤ c ∧ c ≤ 'Z' := decide_eq_true_iff
  have lower : c.isLower = true ↔ 'a' ≤ c ∧ c ≤ 'z' := by
    change (decide ('a' ≤ c) && decide (c ≤ 'z')) = true ↔ _
    rw [Bool.and_eq_true, decide_eq_true_iff, decide_eq_true_iff]
  have letter : isLetter c = (c.isUpper || c.isLower || c == '_') := rfl
  rw [letter, Bool.or_eq_true, Bool.or_eq_true, upper, lower, beq_iff_eq, or_assoc]
  rfl

/-- The characters of words are those of `[A-Za-z0-9_]`. -/
theorem isWordCharacter_iff : isWordCharacter c = true ↔ IsWordPart c := by
  rw [isWordCharacter, Bool.or_eq_true, isLetter_iff, isDigit_iff]
  unfold IsWordStart IsDecimalDigit IsWordPart
  tauto

/-- No letter is a digit. -/
theorem isDigit_eq_false_of_isLetter (letter : isLetter c = true) : c.isDigit = false := by
  rw [Bool.eq_false_iff]
  intro digit
  -- In the order of characters all digits are before all letters.
  obtain ⟨-, below⟩ := isDigit_iff.mp digit
  rcases isLetter_iff.mp letter with ⟨above, -⟩ | ⟨above, -⟩ | rfl
  · exact absurd (le_trans above below) (by decide)
  · exact absurd (le_trans above below) (by decide)
  · exact absurd below (by decide)

/-- Every digit can stand in a word. -/
theorem isWordCharacter_of_isDigit (digit : c.isDigit = true) : isWordCharacter c = true := by
  rw [isWordCharacter, digit, Bool.or_true]

/-- Every letter can stand in a word. -/
theorem isWordCharacter_of_isLetter (letter : isLetter c = true) : isWordCharacter c = true := by
  rw [isWordCharacter, letter, Bool.true_or]

/-- A character of words is none that is not. -/
theorem ne_of_isWordCharacter {other : Char} (word : isWordCharacter c = true)
    (outside : isWordCharacter other = false) : c ≠ other := by
  intro same
  rw [same, outside] at word
  exact Bool.false_ne_true word

/-- No character of words is a blank. -/
theorem isBlank_eq_false_of_isWordCharacter (word : isWordCharacter c = true) :
    isBlank c = false := by
  rw [Bool.eq_false_iff, ne_eq, isBlank_iff, not_or]
  exact ⟨ne_of_isWordCharacter word rfl, ne_of_isWordCharacter word rfl⟩

/-- The characters of words are ASCII. -/
theorem toNat_lt_of_isWordCharacter (word : isWordCharacter c = true) : c.toNat < 128 := by
  have below {last : Char} (under : c ≤ last) (ascii : last.toNat < 128) : c.toNat < 128 :=
    lt_of_le_of_lt (UInt32.le_iff_toNat_le.mp under) ascii
  rcases isWordCharacter_iff.mp word with ⟨-, under⟩ | ⟨-, under⟩ | ⟨-, under⟩ | rfl
  · exact below under (by decide)
  · exact below under (by decide)
  · exact below under (by decide)
  · decide

end

end LoxLexer
