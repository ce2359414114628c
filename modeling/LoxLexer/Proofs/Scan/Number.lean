import LoxLexer.Proofs.Binary64.Nearest
import LoxLexer.Proofs.Scan.Placed

/-! # Numbers in a source

The literal of a number token is the exact number that its lexeme writes, correctly rounded
(`number_rounded`), however many digits there are. Zeros at either end change nothing, and a greater
number never gives a smaller literal. A numeral that is the whole source is one token
(`scan_numeral`). -/

namespace LoxLexer

namespace Numeral

/-- The number that the numeral writes: that of the digits before its point, and that of the digits
after it as decimal places. -/
def rational (numeral : Numeral) : ℚ :=
  digitsValue numeral.whole + digitsValue numeral.fraction / 10 ^ numeral.fraction.length

/-- The numeral with further zeros at either end. -/
def padded (before after : Nat) (numeral : Numeral) : Numeral where
  whole := List.replicate before '0' ++ numeral.whole
  fraction := numeral.fraction ++ List.replicate after '0'

/-- Digits behind others make those count ten times as much for each of them. -/
theorem digitsValue_append (first second : List Char) :
    digitsValue (first ++ second) =
      10 ^ second.length * digitsValue first + digitsValue second :=
  (Nat.ofDigitChars_append 0).trans Nat.ofDigitChars_eq_ofDigitChars_zero

theorem digitsValue_replicate_zero (count : Nat) :
    digitsValue (List.replicate count '0') = 0 :=
  Nat.ofDigitChars_replicate_zero

/-- The decimal of a numeral has the value that its digits stand for. -/
theorem value_decimal (numeral : Numeral) : numeral.decimal.value = numeral.rational := by
  unfold decimal Decimal.value rational
  rw [digitsValue_append, zpow_neg, zpow_natCast, ← div_eq_mul_inv]
  push_cast
  rw [add_div, mul_div_cancel_left₀ _ (by positivity)]

/-- Zeros at either end do not change the number. -/
theorem rational_padded (before after : Nat) (numeral : Numeral) :
    (numeral.padded before after).rational = numeral.rational := by
  unfold padded rational
  rw [digitsValue_append, digitsValue_append, digitsValue_replicate_zero,
    digitsValue_replicate_zero, List.length_append, List.length_replicate, pow_add]
  push_cast
  rw [mul_zero, zero_add, add_zero, mul_comm, mul_div_mul_right _ _ (by positivity)]

/-- The double of a numeral is the number it writes, correctly rounded. -/
theorem isRounded_value (numeral : Numeral) : numeral.value.IsRounded numeral.rational := by
  rw [← value_decimal]
  exact Binary64.isRounded_nearest numeral.decimal

end Numeral

namespace Token

/-- The token is a number in the scan of some source. -/
def IsScannedNumber (token : Token) : Prop :=
  token.kind = .number ∧ ∃ (σ : Type) (sink : Sink σ) (state : σ) (source : String),
    token ∈ (scanWith sink state source).tokens

/-- The lexeme of the token is the numeral, and its literal is the double. -/
structure Writes (token : Token) (numeral : Numeral) (x : Binary64) : Prop where
  isProper : numeral.IsProper
  lexeme : token.lexeme = String.ofList numeral.text
  literal : token.literal = some (.number x)

end Token

theorem Lexeme.exists_numeral_of_kind {piece : Lexeme} (number : piece.kind = .number) :
    ∃ numeral, piece = .number numeral := by
  cases piece with
  | number numeral => exact ⟨numeral, rfl⟩
  | word letters =>
      rw [kind_word] at number
      cases spelled : Keyword.ofSpelling? (String.ofList letters) with
      | none =>
          rw [spelled] at number
          cases number
      | some keyword =>
          rw [spelled] at number
          cases number
  | _ => cases number

/-- A number of a scan is written as a numeral, and its literal is the value of that. -/
theorem Token.IsScannedNumber.exists_writes {token : Token} (scanned : token.IsScannedNumber) :
    ∃ numeral, token.Writes numeral numeral.value := by
  obtain ⟨number, scanned⟩ := scanned
  rcases Token.IsScanned.isLexical_or_eq_eof scanned with ⟨piece, proper, made⟩ | last
  · rw [made] at number
    obtain ⟨numeral, rfl⟩ := Lexeme.exists_numeral_of_kind number
    rw [made]
    exact ⟨numeral, proper, rfl, rfl⟩
  · rw [last] at number
    cases number

/-- The literal of every number token is the number that the lexeme writes, correctly rounded: it
has no sign and is no NaN, it is infinity from the overflow on and zero up to half a unit. Zeros at
either end of the lexeme do not change it, and the literal of a greater number is no smaller. -/
theorem number_rounded {token : Token} (scanned : token.IsScannedNumber) :
    ∃ numeral x, token.Writes numeral x ∧ x.IsRounded numeral.rational ∧
      x.isNegative = false ∧ x.isNaN = false ∧
      (2 ^ 1024 - 2 ^ 970 ≤ numeral.rational → x = .infinity) ∧
      (numeral.rational ≤ 1 / 2 ^ 1075 → x.bits = 0) ∧
      ∀ other : Token, other.IsScannedNumber →
        ∃ other_numeral y, other.Writes other_numeral y ∧
          (∀ before after, other_numeral = numeral.padded before after → y = x) ∧
          (numeral.rational ≤ other_numeral.rational → x.IsAtMost y) := by
  obtain ⟨numeral, writes⟩ := scanned.exists_writes
  have rounded := numeral.isRounded_value
  refine ⟨numeral, numeral.value, writes, rounded, rounded.isNegative_eq_false,
    rounded.isNaN_eq_false, rounded.infinite, rounded.bits_eq_zero, ?_⟩
  intro other other_scanned
  obtain ⟨other_numeral, other_writes⟩ := other_scanned.exists_writes
  have other_rounded := other_numeral.isRounded_value
  refine ⟨other_numeral, other_numeral.value, other_writes, ?_, rounded.mono other_rounded⟩
  rintro before after rfl
  rw [Numeral.rational_padded] at other_rounded
  exact other_rounded.eq rounded

/-! ## A numeral alone -/

/-- A source that is one numeral is one number token. -/
theorem scan_numeral {numeral : Numeral} (proper : numeral.IsProper) :
    (scan (String.ofList numeral.text)).1 =
      .ok [(Lexeme.number numeral).token 1, .eof 1] := by
  have lexeme_proper : (Lexeme.number numeral).IsProper := proper
  have one_line : numeral.text.count '\n' = 0 :=
    List.count_eq_zero.mpr (lexeme_proper.newline_notMem_text (by simp))
  have token := scan_lexeme lexeme_proper
  rwa [Lexeme.text, one_line] at token

/-- Halfway between two doubles the even significand is taken: here the smaller one, `2 ^ 53`. -/
theorem number_rounded_at_tie :
    ((Lexeme.number ⟨"9007199254740993".toList, []⟩).token 1).IsScannedNumber ∧
    ∃ numeral x, ((Lexeme.number ⟨"9007199254740993".toList, []⟩).token 1).Writes numeral x ∧
      x.IsRounded numeral.rational ∧ x.magnitude = 1076 * Binary64.fractions := by
  have scanned : ((Lexeme.number ⟨"9007199254740993".toList, []⟩).token 1).IsScannedNumber :=
    ⟨rfl, _, .collecting, [], "9007199254740993", by decide +kernel⟩
  obtain ⟨numeral, x, writes, rounded, _⟩ := number_rounded scanned
  have value : x = (Numeral.mk "9007199254740993".toList []).value :=
    Literal.number.inj (Option.some.inj writes.literal.symm)
  refine ⟨scanned, numeral, x, writes, rounded, ?_⟩
  rw [value]
  decide +kernel

end LoxLexer
