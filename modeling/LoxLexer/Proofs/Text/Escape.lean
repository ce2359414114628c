import LoxLexer.Proofs.Source.Proper
import LoxLexer.Text.Escape

/-! # Reading escaped characters

A character that is written with a backslash or by its code point is told by what is written, and so
is where that ends, as long as no mark that takes a backslash is the second character of another
form (`Text.readEscaped_escape`). So what is written for one character never begins what is written
for another (`Text.escape_append_inj`). -/

namespace LoxLexer.Text

/-! ## Numbers in a base -/

/-- What holds of every digit of a base holds of what a number is written with. -/
theorem forall_mem_toDigits {base : Nat} (one_lt : 1 < base) {holds : Char → Prop}
    (of_digit : ∀ digit < base, holds digit.digitChar) (number : Nat) :
    ∀ c ∈ Nat.toDigits base number, holds c := by
  induction number using Nat.base_induction base one_lt with
  | single digit small =>
      rw [Nat.toDigits_of_lt_base small]
      exact List.forall_mem_singleton.mpr (of_digit digit small)
  | digit number digit small pos ih =>
      rw [← Nat.toDigits_append_toDigits one_lt pos small, Nat.toDigits_of_lt_base small]
      exact List.forall_mem_append.mpr ⟨ih, List.forall_mem_singleton.mpr (of_digit digit small)⟩

/-- The value of a digit, of which those from ten on are small letters. -/
def digitValue (c : Char) : Nat :=
  if c.isDigit then c.toNat - '0'.toNat else c.toNat - 'a'.toNat + 10

/-- The number that is written with hexadecimal digits. -/
def hexValue (digits : List Char) : Nat :=
  digits.foldl (fun value c => 16 * value + digitValue c) 0

/-- Each hexadecimal digit has its value. -/
theorem digitValue_digitChar : ∀ digit < 16, digitValue digit.digitChar = digit := by
  decide

/-- The hexadecimal digits of a number stand for it. -/
theorem hexValue_toDigits (number : Nat) : hexValue (Nat.toDigits 16 number) = number := by
  induction number using Nat.base_induction 16 (by decide) with
  | single digit small =>
      rw [Nat.toDigits_of_lt_base small]
      exact (Nat.zero_add _).trans (digitValue_digitChar digit small)
  | digit number digit small pos ih =>
      rw [← Nat.toDigits_append_toDigits (by decide) pos small, Nat.toDigits_of_lt_base small]
      calc hexValue (Nat.toDigits 16 number ++ [digit.digitChar])
          = 16 * hexValue (Nat.toDigits 16 number) + digitValue digit.digitChar := List.foldl_append
        _ = 16 * number + digit := by rw [ih, digitValue_digitChar digit small]

/-! ## Escaped characters -/

/-- The letters behind a backslash that do not stand for themselves. -/
def formLetters : List Char :=
  ['0', 't', 'r', 'n', 'u']

/-- The character that is written behind a backslash, and the text behind that. -/
def readForm : List Char → Option (Char × List Char)
  | [] => none
  | '0' :: rest => some ('\x00', rest)
  | 't' :: rest => some ('\t', rest)
  | 'r' :: rest => some ('\r', rest)
  | 'n' :: rest => some ('\n', rest)
  | 'u' :: rest =>
    some (Char.ofNat (hexValue ((rest.drop 1).takeWhile (· != '\x7d'))),
      ((rest.drop 1).dropWhile (· != '\x7d')).drop 1)
  | c :: rest => some (c, rest)

/-- The character that is written at the beginning of a text, and the text behind that. -/
def readEscaped : List Char → Option (Char × List Char)
  | [] => none
  | c :: rest => if c = '\\' then readForm rest else some (c, rest)

variable {marks : List Char}

/-- A mark that stands for itself is read as itself. -/
theorem readForm_mark {mark : Char} (itself : mark ∉ formLetters) (rest : List Char) :
    readForm (mark :: rest) = some (mark, rest) := by
  simp only [formLetters, List.mem_cons, List.not_mem_nil, or_false, not_or] at itself
  obtain ⟨null, tab, carriage, newline, code⟩ := itself
  simp only [readForm]

/-- A character is read from its number in braces. -/
theorem readForm_code (c : Char) (rest : List Char) :
    readForm ('u' :: '\x7b' :: (Nat.toDigits 16 c.toNat ++ '\x7d' :: rest)) = some (c, rest) := by
  have digits : ∀ d ∈ Nat.toDigits 16 c.toNat, (d != '\x7d') = true :=
    forall_mem_toDigits (by decide) (by decide) c.toNat
  have ended : ∀ d ∈ ('\x7d' :: rest).head?, (d != '\x7d') = false := by
    intro d first
    obtain rfl := Option.some.inj first
    rfl
  obtain ⟨taken, dropped⟩ := span_append digits ended
  simp only [readForm, List.drop_succ_cons, List.drop_zero]
  rw [taken, dropped, hexValue_toDigits, Char.ofNat_toNat]
  rfl

/-- Behind what is written for a character, with marks that are no letters of a form, the character
is read, and the rest is left. -/
theorem readEscaped_escape (apart : ∀ mark ∈ marks, mark ∉ formLetters) (c : Char)
    (rest : List Char) : readEscaped (escape marks c ++ rest) = some (c, rest) := by
  unfold escape
  split_ifs with null tab carriage newline backslash mark unprintable
  · exact null ▸ rfl
  · exact tab ▸ rfl
  · exact carriage ▸ rfl
  · exact newline ▸ rfl
  · subst backslash
    rfl
  · exact readForm_mark (apart c mark) rest
  · have written : ['\\', 'u', '\x7b'] ++ Nat.toDigits 16 c.toNat ++ ['\x7d'] ++ rest =
        '\\' :: 'u' :: '\x7b' :: (Nat.toDigits 16 c.toNat ++ '\x7d' :: rest) := by simp
    rw [written]
    exact readForm_code c rest
  · exact if_neg backslash

/-- What is written for a character never begins what is written for another. -/
theorem escape_append_inj (apart : ∀ mark ∈ marks, mark ∉ formLetters) {c d : Char}
    {rest later : List Char} (same : escape marks c ++ rest = escape marks d ++ later) :
    c = d ∧ rest = later := by
  have read : some (c, rest) = some (d, later) := by
    rw [← readEscaped_escape apart c rest, same, readEscaped_escape apart d later]
  exact Prod.mk.inj (Option.some.inj read)

/-- A newline is never written as it is. -/
theorem newline_notMem_escape (c : Char) : '\n' ∉ escape marks c := by
  unfold escape
  split_ifs with null tab carriage newline backslash mark unprintable
  · decide
  · decide
  · decide
  · decide
  · decide
  · have other : c ≠ '\n' := newline
    simp [other.symm]
  · have digits : ∀ d ∈ Nat.toDigits 16 c.toNat, d ≠ '\n' :=
      forall_mem_toDigits (by decide) (by decide) c.toNat
    have no_digit : '\n' ∉ Nat.toDigits 16 c.toNat := fun inside => digits '\n' inside rfl
    simp [no_digit]
  · simpa using Ne.symm newline

end LoxLexer.Text
