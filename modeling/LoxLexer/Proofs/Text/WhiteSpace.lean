import LoxLexer.Proofs.Source.Proper
import LoxLexer.Text.Basic

/-! # Letters and white space

White space lies on both sides of the characters that names and words are made of
(`toNat_of_isWhiteSpace`), so no letter is white space, and trimming takes away the white space that
was written around a text and no more (`trim_append`). -/

namespace LoxLexer.Text

/-! ## Letters -/

/-- The letters stand between the capital A and the small z. -/
theorem toNat_of_isAlpha {c : Char} (alpha : c.isAlpha = true) :
    65 ≤ c.toNat ∧ c.toNat ≤ 122 := by
  rcases Bool.or_eq_true_iff.mp alpha with upper | lower
  · obtain ⟨above, below⟩ := of_decide_eq_true upper
    have first : 65 ≤ c.toNat := UInt32.le_iff_toNat_le.mp above
    have last : c.toNat ≤ 90 := UInt32.le_iff_toNat_le.mp below
    omega
  · obtain ⟨above, below⟩ := Bool.and_eq_true_iff.mp lower
    have first : 97 ≤ c.toNat := UInt32.le_iff_toNat_le.mp (of_decide_eq_true above)
    have last : c.toNat ≤ 122 := UInt32.le_iff_toNat_le.mp (of_decide_eq_true below)
    omega

theorem isAlpha_of_isLower {c : Char} (lower : c.isLower = true) : c.isAlpha = true :=
  Bool.or_eq_true_iff.mpr (.inr lower)

/-- Only letters have a lower-case form that is a letter. -/
theorem isAlpha_of_isLower_toLower {c : Char} (lower : c.toLower.isLower = true) :
    c.isAlpha = true := by
  unfold Char.toLower at lower
  split at lower
  · rename_i upper
    exact Bool.or_eq_true_iff.mpr (.inl (decide_eq_true upper))
  · exact isAlpha_of_isLower lower

/-! ## White space -/

/-- White space is below and above everything that names and words are made of. -/
theorem toNat_of_isWhiteSpace {c : Char} (white : isWhiteSpace c = true) :
    c.toNat ≤ 32 ∨ 133 ≤ c.toNat := by
  simp only [isWhiteSpace, Bool.or_eq_true, Bool.and_eq_true, decide_eq_true_eq, beq_iff_eq,
    or_assoc] at white
  rcases white with ⟨-, control⟩ | rfl | rfl | rfl | rfl | ⟨wide, -⟩ | rfl | rfl | rfl | rfl | rfl
  case inl =>
    have below : c.toNat ≤ 13 := UInt32.le_iff_toNat_le.mp control
    omega
  case inr.inr.inr.inr.inr.inl =>
    have above : 8192 ≤ c.toNat := UInt32.le_iff_toNat_le.mp wide
    omega
  all_goals decide

/-- No character from 33 to 132 is white space. -/
theorem isWhiteSpace_eq_false {c : Char} (above : 33 ≤ c.toNat) (below : c.toNat ≤ 132) :
    isWhiteSpace c = false := by
  rw [Bool.eq_false_iff]
  intro white
  have outside := toNat_of_isWhiteSpace white
  omega

theorem isAlpha_eq_false_of_isWhiteSpace {c : Char} (white : isWhiteSpace c = true) :
    c.isAlpha = false := by
  rw [Bool.eq_false_iff]
  intro alpha
  have outside := toNat_of_isWhiteSpace white
  have inside := toNat_of_isAlpha alpha
  omega

/-- White space around a text that neither begins nor ends with white space is trimmed. -/
theorem trim_append {lead body trail : List Char} (some_body : body ≠ [])
    (lead_white : ∀ c ∈ lead, isWhiteSpace c = true)
    (trail_white : ∀ c ∈ trail, isWhiteSpace c = true)
    (first : ∀ c ∈ body.head?, isWhiteSpace c = false)
    (last : ∀ c ∈ body.getLast?, isWhiteSpace c = false) :
    trim (lead ++ body ++ trail) = body := by
  have front : ∀ c ∈ (body ++ trail).head?, isWhiteSpace c = false := by
    obtain ⟨c, others, rfl⟩ := List.exists_cons_of_ne_nil some_body
    exact first
  have back : ∀ c ∈ body.reverse.head?, isWhiteSpace c = false := by
    rw [List.head?_reverse]
    exact last
  have trail_reverse : ∀ c ∈ trail.reverse, isWhiteSpace c = true := by
    intro c inside
    exact trail_white c (List.mem_reverse.mp inside)
  unfold trim
  rw [List.append_assoc, (span_append lead_white front).2, List.reverse_append,
    (span_append trail_reverse back).2, List.reverse_reverse]

/-- What is trimmed away is white space. -/
theorem exists_append_trim (cs : List Char) :
    ∃ lead trail, cs = lead ++ trim cs ++ trail ∧ (∀ c ∈ lead, isWhiteSpace c = true) ∧
      ∀ c ∈ trail, isWhiteSpace c = true := by
  have front := List.takeWhile_append_dropWhile (p := isWhiteSpace) (l := cs)
  have back := List.takeWhile_append_dropWhile (p := isWhiteSpace)
    (l := (cs.dropWhile isWhiteSpace).reverse)
  refine ⟨cs.takeWhile isWhiteSpace,
    ((cs.dropWhile isWhiteSpace).reverse.takeWhile isWhiteSpace).reverse, ?_,
    fun c inside => List.mem_takeWhile_imp inside,
    fun c inside => List.mem_takeWhile_imp (List.mem_reverse.mp inside)⟩
  unfold trim
  rw [List.append_assoc, ← List.reverse_append, back, List.reverse_reverse, front]

end LoxLexer.Text
