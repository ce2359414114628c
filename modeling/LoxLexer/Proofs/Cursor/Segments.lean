import LoxLexer.Proofs.Cursor.Steps
import LoxLexer.Proofs.Source.Cut

/-! # A cursor at a segment

Where a proper segment comes next and ends before the rest, the cursor goes over that segment, on to
the end of its last character, and meets what there is to meet in it (`Cursor.scanSegment_eq`). -/

namespace LoxLexer

namespace Cursor
variable {ρ : Type}

/-- The cursor stands between two parts of the source, on the line that the second begins on. -/
structure Stands (source : String) (cursor : Cursor ρ) (before rest : List Char) : Prop where
  between : Between source cursor.current before rest
  line : cursor.line = 1 + before.count '\n'

/-- The cursor behind a segment that it has gone over and met. -/
def past (hand : ρ → Event → ρ) (segment : Segment) (cursor : Cursor ρ) : Cursor ρ :=
  { cursor.begun.forward (encoded segment.text).length segment.newlines with
    met := (segment.event? cursor.line).toList.foldl hand cursor.met }

variable {source : String} {hand : ρ → Event → ρ} {cursor : Cursor ρ} {before rest : List Char}

/-- A cursor that has gone over a segment stands behind it, on the line that the rest begins on. -/
theorem Stands.past {segment : Segment}
    (stands : Stands source cursor before (segment.text ++ rest)) :
    Stands source (cursor.past hand segment) (before ++ segment.text) rest where
  between := stands.between.append
  line := by
    rw [List.count_append, ← Nat.add_assoc, ← stands.line]
    rfl

/-- There are not more lines than octets, and one more. -/
theorem Stands.line_le {middle : List Char}
    (stands : Stands source cursor before (middle ++ rest)) :
    cursor.line + middle.count '\n' ≤ source.utf8ByteSize + 1 := by
  have behind := stands.between.append
  have newlines : (before ++ middle).count '\n' ≤ (encoded (before ++ middle)).length := by
    rw [← count_newline_encoded]
    exact List.count_le_length
  have within := behind.le_utf8ByteSize
  rw [behind.position] at within
  rw [stands.line, Nat.add_assoc, ← List.count_append]
  omega

/-! ## Tokens -/

/-- The text that a cursor has gone over is cut out, and no character with it in two. -/
theorem lexeme_of_between {text : List Char} {gone : Nat} (length : (encoded text).length = gone)
    (lines : Nat) (between : Between source cursor.current before (text ++ rest)) :
    lexeme source (cursor.begun.forward gone lines) = .ok (String.ofList text) := by
  rw [← length]
  exact slice_of_between between

variable (hand) in
/-- A token that is added behind its text makes the cursor past the lexeme. -/
theorem addToken_past {piece : Lexeme} {gone : Nat} (one_line : '\n' ∉ piece.text)
    (length : (encoded piece.text).length = gone)
    (between : Between source cursor.current before (piece.text ++ rest)) :
    addToken source hand piece.kind piece.literal (cursor.begun.forward gone 0) =
      .ok (cursor.past hand (.lexeme piece)) := by
  have no_newlines : Segment.newlines (.lexeme piece) = 0 := List.count_eq_zero.mpr one_line
  unfold addToken
  rw [lexeme_of_between length 0 between, Breach.ok_bind, past, no_newlines, Segment.text, length]
  rfl

/-! ## Segments, by their first octets -/

section Dispatch
variable {first : Char} (read : advance source cursor.begun = .ok (first, cursor.begun.forward 1 0))
include read

/-- Where a mark begins, a mark or a comment is scanned. -/
theorem scanSegment_of_single? {mark : Punctuator} (single : Punctuator.single? first = some mark) :
    scanSegment source hand cursor.begun =
      scanMark source hand mark (cursor.begun.forward 1 0) := by
  unfold scanSegment
  rw [read, Breach.ok_bind]
  simp only [single]

/-- Where no mark begins, the first octet tells what is scanned. -/
theorem scanSegment_of_not_single? (other : Punctuator.single? first = none) :
    scanSegment source hand cursor.begun =
      if first = '"' then scanString source hand (cursor.begun.forward 1 0)
      else if isBlank first then .ok (cursor.begun.forward 1 0)
      else if first = '\n' then countLine source (cursor.begun.forward 1 0)
      else if first.isDigit then scanNumber source hand (cursor.begun.forward 1 0)
      else if isLetter first then scanWord source hand (cursor.begun.forward 1 0)
      else strayCharacter source hand (cursor.begun.forward 1 0) := by
  unfold scanSegment
  rw [read, Breach.ok_bind]
  simp only [other]
  rfl

/-- Where a character of words stands, a number or a word is scanned. -/
theorem scanSegment_of_isWordCharacter (word : isWordCharacter first = true) :
    scanSegment source hand cursor.begun =
      if first.isDigit then scanNumber source hand (cursor.begun.forward 1 0)
      else scanWord source hand (cursor.begun.forward 1 0) := by
  have not_quote : first ≠ '"' := ne_of_isWordCharacter word rfl
  have not_newline : first ≠ '\n' := ne_of_isWordCharacter word rfl
  have not_blank : ¬ isBlank first = true := by
    simp [isBlank_eq_false_of_isWordCharacter word]
  rw [scanSegment_of_not_single? read (Punctuator.single?_eq_none_of_isWordCharacter word),
    if_neg not_quote, if_neg not_blank, if_neg not_newline]
  split
  · rfl
  · rename_i not_digit
    have letter : isLetter first = true :=
      (Bool.or_eq_true_iff.mp word).resolve_right not_digit
    rw [if_pos letter]

end Dispatch

/-- Behind a segment in which nothing is met. -/
theorem past_of_silent {segment : Segment} (silent : ∀ line, segment.event? line = none) :
    cursor.past hand segment =
      cursor.begun.forward (encoded segment.text).length segment.newlines := by
  unfold past
  rw [silent, Option.toList_none, List.foldl_nil]
  rfl

/-- A blank is gone over. -/
theorem scanSegment_blank {c : Char} (blank : isBlank c = true)
    (between : Between source cursor.current before (c :: rest)) :
    scanSegment source hand cursor.begun = .ok (cursor.past hand (.blank c)) := by
  have silent : ∀ line, Segment.event? line (.blank c) = none := fun _ => rfl
  rw [past_of_silent silent]
  rcases isBlank_iff.mp blank with rfl | rfl
  · obtain ⟨read, -⟩ := advance_of_between cursor.begun (by decide) between
    exact scanSegment_of_not_single? read rfl
  · obtain ⟨read, -⟩ := advance_of_between cursor.begun (by decide) between
    exact scanSegment_of_not_single? read rfl

/-- A newline is gone over and counted. -/
theorem scanSegment_newline (stands : Stands source cursor before ('\n' :: rest)) :
    scanSegment source hand cursor.begun = .ok (cursor.past hand .newline) := by
  have silent : ∀ line, Segment.event? line .newline = none := fun _ => rfl
  obtain ⟨read, -⟩ := advance_of_between cursor.begun (by decide) stands.between
  have within : (cursor.begun.forward 1 0).line ≤ source.utf8ByteSize := by
    have room : cursor.line + ['\n'].count '\n' ≤ source.utf8ByteSize + 1 := stands.line_le
    rwa [List.count_singleton_self, Nat.add_le_add_iff_right] at room
  rw [past_of_silent silent, scanSegment_of_not_single? read rfl]
  change countLine source (cursor.begun.forward 1 0) = _
  unfold countLine
  rw [if_pos within, forward_forward]
  rfl

/-- A comment is gone over to the end of its line. -/
theorem scanSegment_comment {body : List Char} (one_line : '\n' ∉ body)
    (ends : ∀ c ∈ rest.head?, c = '\n')
    (between : Between source cursor.current before ('/' :: '/' :: (body ++ rest))) :
    scanSegment source hand cursor.begun = .ok (cursor.past hand (.comment body)) := by
  have silent : ∀ line, Segment.event? line (.comment body) = none := fun _ => rfl
  have proper : (Segment.comment body).IsProper := one_line
  have newlines : Segment.newlines (.comment body) = 0 :=
    List.count_eq_zero.mpr (proper.newline_notMem_text (by simp) (by simp) (by simp))
  obtain ⟨read, second⟩ := advance_of_between cursor.begun (by decide) between
  have slash : ahead source (cursor.begun.forward 1 0).current = '/' :: encoded (body ++ rest) :=
    second.ahead.trans (encoded_cons_of_lt (by decide) _)
  obtain ⟨-, inside⟩ := advance_of_between (cursor.begun.forward 1 0) (by decide) second
  have passed := advanceWhile_uncounted (cursor.begun.forward 2 0) (goesOn_bne '\n')
    (octetwise_bne (by decide)) inside (Segment.bne_of_not_mem one_line)
    (fun c first => by simp [ends c first])
  rw [past_of_silent silent, newlines, scanSegment_of_single? read rfl]
  unfold scanMark
  rw [if_pos rfl, accept_of_ahead slash, forward_forward]
  change advanceWhile source _ false (cursor.begun.forward 2 0) = _
  rw [passed, forward_forward, Segment.text, length_encoded_cons (by decide),
    length_encoded_cons (by decide), ← Nat.add_assoc]

/-! ## Marks -/

/-- A mark that nothing longer begins with here is added as it is. -/
theorem scanMark_of_ends {mark : Punctuator} (ends : mark.EndsBefore rest)
    (here : ahead source cursor.current = encoded rest) :
    scanMark source hand mark cursor = addToken source hand (.punctuator mark) none cursor := by
  unfold scanMark
  split
  · rename_i slash
    have other : (ahead source cursor.current).head? ≠ some '/' := by
      rw [here]
      exact head?_encoded_ne (by decide) (ends.slash slash)
    rw [accept_of_not_ahead other]
    rfl
  split
  · rename_i longer double
    have other : (ahead source cursor.current).head? ≠ some '=' := by
      rw [here]
      exact head?_encoded_ne (by decide) (ends.equal (by simp [double]))
    rw [accept_of_not_ahead other]
    rfl
  · rfl

/-- A mark with an equals sign behind it is added with the sign. -/
theorem scanMark_of_withEqual? {mark longer : Punctuator}
    (double : mark.withEqual? = some longer) {octets : List Char}
    (here : ahead source cursor.current = '=' :: octets) :
    scanMark source hand mark cursor =
      addToken source hand (.punctuator longer) none (cursor.forward 1 0) := by
  have not_slash : mark ≠ .slash := by
    rintro rfl
    cases double
  unfold scanMark
  simp only [not_slash, double, accept_of_ahead here, ↓reduceIte]

/-- A mark is gone over and added. -/
theorem scanSegment_mark {mark : Punctuator} (ends : mark.EndsBefore rest)
    (between : Between source cursor.current before (mark.text ++ rest)) :
    scanSegment source hand cursor.begun = .ok (cursor.past hand (.lexeme (.punctuator mark))) := by
  have proper : (Lexeme.punctuator mark).IsProper := trivial
  have one_line := proper.newline_notMem_text (by simp)
  have length : (encoded (Lexeme.punctuator mark).text).length = mark.text.length := by
    cases mark <;> rfl
  have added := addToken_past hand one_line length between
  rcases mark.text_cases with ⟨c, single, text⟩ | ⟨c, short, single, double, text⟩
  · rw [text] at between added
    have ascii := toNat_lt_of_single? single
    obtain ⟨read, second⟩ := advance_of_between cursor.begun ascii between
    rw [scanSegment_of_single? read single, scanMark_of_ends ends second.ahead]
    exact added
  · rw [text] at between added
    have ascii := toNat_lt_of_single? single
    obtain ⟨read, second⟩ := advance_of_between cursor.begun ascii between
    have equal : ahead source (cursor.begun.forward 1 0).current = '=' :: encoded rest :=
      second.ahead.trans (encoded_cons_of_lt (by decide) rest)
    rw [scanSegment_of_single? read single, scanMark_of_withEqual? double equal, forward_forward]
    exact added

/-! ## Words and numbers -/

/-- A word is gone over and added. -/
theorem scanSegment_word {first : Char} {letters : List Char} (letter : isLetter first = true)
    (inside : ∀ c ∈ letters, isWordCharacter c = true)
    (ends : ∀ c ∈ rest.head?, isWordCharacter c = false)
    (between : Between source cursor.current before (first :: letters ++ rest)) :
    scanSegment source hand cursor.begun =
      .ok (cursor.past hand (.lexeme (.word (first :: letters)))) := by
  have word := isWordCharacter_of_isLetter letter
  have ascii := toNat_lt_of_isWordCharacter word
  have proper : (Lexeme.word (first :: letters)).IsProper := ⟨first, letters, rfl, letter, inside⟩
  have one_line := proper.newline_notMem_text (by simp)
  have length := length_encoded_cons ascii letters
  obtain ⟨read, second⟩ := advance_of_between cursor.begun ascii between
  have passed := advanceWhile_uncounted (cursor.begun.forward 1 0) (goesOn_peek rfl)
    octetwise_isWordCharacter second inside ends
  rw [scanSegment_of_isWordCharacter read word,
    if_neg (by simp [isDigit_eq_false_of_isLetter letter])]
  unfold scanWord
  rw [passed, Breach.ok_bind, forward_forward]
  change (lexeme source (cursor.begun.forward _ 0) >>= _) = _
  rw [lexeme_of_between length 0 between, Breach.ok_bind]
  exact addToken_past hand one_line length between

/-- Digits are gone over to the last of them. -/
theorem scanDigits_of_between (cursor : Cursor ρ) {digits : List Char}
    (digit : ∀ c ∈ digits, c.isDigit = true) (ends : ∀ c ∈ rest.head?, c.isDigit = false)
    (between : Between source cursor.current before (digits ++ rest)) :
    scanDigits source cursor = .ok (cursor.forward (encoded digits).length 0) :=
  advanceWhile_uncounted cursor (goesOn_peek rfl) octetwise_isDigit between digit ends

/-- Behind an ASCII character the octet after next is the first of the rest. -/
theorem peekNext_of_between {c : Char} (ascii : c.toNat < 128)
    (between : Between source cursor.current before (c :: rest)) :
    peekNext source cursor = (encoded rest).head?.getD '\x00' := by
  obtain ⟨-, second⟩ := advance_of_between cursor ascii between
  rw [peekNext, octetAt?_eq_head?_ahead, second.ahead]

/-- A point that no digit follows is left where it is. -/
theorem scanFraction_of_pointless (cursor : Cursor ρ)
    (pointless : ∀ c after, rest = '.' :: c :: after → c.isDigit = false)
    (between : Between source cursor.current before rest) :
    scanFraction source cursor = .ok cursor := by
  unfold scanFraction
  rw [if_neg]
  rintro ⟨point, digit⟩
  have pointed := (octetwise_beq (d := '.') (by decide)).head?_encoded rfl rest
  rw [← between.ahead, ← peek_eq, point] at pointed
  obtain ⟨after, rfl⟩ : ∃ after, rest = '.' :: after := by
    cases rest with
    | nil => cases pointed
    | cons c after => exact ⟨after, congrArg (· :: after) (eq_of_beq pointed.symm)⟩
  rw [peekNext_of_between (by decide) between, octetwise_isDigit.head?_encoded rfl] at digit
  cases after with
  | nil => cases digit
  | cons c later =>
      rw [List.head?_cons, Option.any_some, pointless c later rfl] at digit
      cases digit

/-- A point that digits follow is gone over with them. -/
theorem scanFraction_of_pointed (cursor : Cursor ρ) {digits : List Char} (some_digits : digits ≠ [])
    (digit : ∀ c ∈ digits, c.isDigit = true) (ends : ∀ c ∈ rest.head?, c.isDigit = false)
    (between : Between source cursor.current before ('.' :: (digits ++ rest))) :
    scanFraction source cursor = .ok (cursor.forward (1 + (encoded digits).length) 0) := by
  obtain ⟨read, second⟩ := advance_of_between cursor (by decide) between
  have point : peek source cursor = '.' := by
    rw [peek_eq, between.ahead, encoded_cons_of_lt (by decide)]
    rfl
  have next : (peekNext source cursor).isDigit = true := by
    obtain ⟨first, others, rfl⟩ := List.exists_cons_of_ne_nil some_digits
    rw [peekNext_of_between (by decide) between, octetwise_isDigit.head?_encoded rfl]
    exact digit first List.mem_cons_self
  have passed := scanDigits_of_between (cursor.forward 1 0) digit ends second
  unfold scanFraction
  rw [if_pos ⟨point, next⟩, read, Breach.ok_bind]
  exact passed.trans (by rw [forward_forward])

/-- A number is added if its digits, and its fraction if it has one, are gone over. -/
theorem scanNumber_past {numeral : Numeral} (proper : numeral.IsProper) {gone : Nat}
    {whole : Cursor ρ} (digits : scanDigits source (cursor.begun.forward 1 0) = .ok whole)
    (fraction : scanFraction source whole = .ok (cursor.begun.forward gone 0))
    (length : (encoded numeral.text).length = gone)
    (between : Between source cursor.current before (numeral.text ++ rest)) :
    scanNumber source hand (cursor.begun.forward 1 0) =
      .ok (cursor.past hand (.lexeme (.number numeral))) := by
  have lexeme_proper : (Lexeme.number numeral).IsProper := proper
  have one_line := lexeme_proper.newline_notMem_text (by simp)
  have read : Numeral.ofText? (String.ofList numeral.text).toList = some numeral := by
    rw [String.toList_ofList]
    exact Numeral.ofText?_eq_some_iff.mpr ⟨proper, rfl⟩
  unfold scanNumber
  rw [digits, Breach.ok_bind, fraction, Breach.ok_bind, lexeme_of_between length 0 between,
    Breach.ok_bind]
  simp only [read]
  have added := addToken_past hand one_line length between
  exact added

/-- A number without a point is gone over and added. -/
theorem scanSegment_whole {first : Char} {digits : List Char}
    (proper : Numeral.IsProper ⟨first :: digits, []⟩)
    (ends : Numeral.EndsBefore ⟨first :: digits, []⟩ rest)
    (between : Between source cursor.current before (first :: digits ++ rest)) :
    scanSegment source hand cursor.begun =
      .ok (cursor.past hand (.lexeme (.number ⟨first :: digits, []⟩))) := by
  obtain ⟨first_digit, digits_digit⟩ := List.forall_mem_cons.mp proper.whole_digit
  have word := isWordCharacter_of_isDigit first_digit
  have ascii := toNat_lt_of_isWordCharacter word
  have length := length_encoded_cons ascii digits
  obtain ⟨read, second⟩ := advance_of_between cursor.begun ascii between
  have passed := scanDigits_of_between (cursor.begun.forward 1 0) digits_digit ends.digit second
  rw [forward_forward] at passed
  have behind := second.append
  rw [Nat.add_assoc] at behind
  have still := scanFraction_of_pointless
    (cursor.begun.forward (1 + (encoded digits).length) 0) (ends.point rfl) behind
  rw [scanSegment_of_isWordCharacter read word, if_pos first_digit]
  exact scanNumber_past proper passed still length between

theorem scanSegment_pointed {first : Char} {digits fraction : List Char}
    (proper : Numeral.IsProper ⟨first :: digits, fraction⟩) (some_fraction : fraction ≠ [])
    (ends : Numeral.EndsBefore ⟨first :: digits, fraction⟩ rest)
    (between : Between source cursor.current before
      (Numeral.text ⟨first :: digits, fraction⟩ ++ rest)) :
    scanSegment source hand cursor.begun =
      .ok (cursor.past hand (.lexeme (.number ⟨first :: digits, fraction⟩))) := by
  obtain ⟨first_digit, digits_digit⟩ := List.forall_mem_cons.mp proper.whole_digit
  have word := isWordCharacter_of_isDigit first_digit
  have ascii := toNat_lt_of_isWordCharacter word
  have text : Numeral.text ⟨first :: digits, fraction⟩ = first :: (digits ++ '.' :: fraction) := by
    simp [Numeral.text]
  have length : (encoded (Numeral.text ⟨first :: digits, fraction⟩)).length =
      1 + (encoded digits).length + (1 + (encoded fraction).length) := by
    rw [text, length_encoded_cons ascii, encoded_append, List.length_append,
      length_encoded_cons (by decide), Nat.add_assoc]
  have pointed := between
  rw [text, List.cons_append, List.append_assoc, List.cons_append] at pointed
  obtain ⟨read, second⟩ := advance_of_between cursor.begun ascii pointed
  have point : ∀ c ∈ ('.' :: (fraction ++ rest)).head?, c.isDigit = false := by
    intro c head
    obtain rfl : '.' = c := Option.some.inj head
    rfl
  have passed := scanDigits_of_between (cursor.begun.forward 1 0) digits_digit point second
  rw [forward_forward] at passed
  have behind := second.append
  rw [Nat.add_assoc] at behind
  have further := scanFraction_of_pointed
    (cursor.begun.forward (1 + (encoded digits).length) 0) some_fraction proper.fraction_digit
    ends.digit behind
  rw [forward_forward] at further
  rw [scanSegment_of_isWordCharacter read word, if_pos first_digit]
  exact scanNumber_past proper passed further length between

/-- A number is gone over and added. -/
theorem scanSegment_number {numeral : Numeral} (proper : numeral.IsProper)
    (ends : numeral.EndsBefore rest)
    (between : Between source cursor.current before (numeral.text ++ rest)) :
    scanSegment source hand cursor.begun = .ok (cursor.past hand (.lexeme (.number numeral))) := by
  obtain ⟨whole, fraction⟩ := numeral
  obtain ⟨first, digits, rfl⟩ := List.exists_cons_of_ne_nil proper.whole_ne_nil
  by_cases pointless : fraction = []
  · subst pointless
    exact scanSegment_whole proper ends between
  · exact scanSegment_pointed proper pointless ends between

/-! ## Strings -/

/-- Where a quotation mark stands, a string is scanned. -/
theorem scanSegment_quote (between : Between source cursor.current before ('"' :: rest)) :
    scanSegment source hand cursor.begun = scanString source hand (cursor.begun.forward 1 0) := by
  obtain ⟨read, -⟩ := advance_of_between cursor.begun (by decide) between
  exact scanSegment_of_not_single? read rfl

/-- The text of a string is passed, its newlines counted. -/
theorem advanceWhile_string {body : List Char} (unquoted : '"' ∉ body)
    (closing : ∀ c ∈ rest.head?, c = '"')
    (stands : Stands source cursor before ('"' :: (body ++ rest))) :
    advanceWhile source (fun ahead => peek source ahead != '"' && !atEnd source ahead) true
        (cursor.begun.forward 1 0) =
      .ok (cursor.begun.forward (1 + (encoded body).length) (body.count '\n')) ∧
    Between source (cursor.begun.forward (1 + (encoded body).length) (body.count '\n')).current
      (before ++ ['"'] ++ body) rest := by
  obtain ⟨-, inside⟩ := advance_of_between cursor.begun (by decide) stands.between
  have newlines : ('"' :: body).count '\n' = body.count '\n' :=
    List.count_cons_of_ne (by decide)
  have room : cursor.line + ('"' :: body).count '\n' ≤ source.utf8ByteSize + 1 := stands.line_le
  rw [newlines] at room
  have passed := advanceWhile_of_between (cursor.begun.forward 1 0) (goesOn_bne '"')
    (octetwise_bne (by decide)) true inside (Segment.bne_of_not_mem unquoted)
    (fun c first => by simp [closing c first]) (fun _ => room)
  have behind := inside.append
  rw [Nat.add_assoc] at behind
  rw [passed, forward_forward, Nat.zero_add]
  exact ⟨rfl, behind⟩

/-- The text of a string is cut out without its marks, and between them no character is cut in
two. -/
theorem slice_string {body : List Char}
    (between : Between source cursor.current before ('"' :: (body ++ rest))) :
    slice source (cursor.current + 1) (cursor.current + (1 + (encoded body).length + 1) - 1) =
      .ok (String.ofList body) := by
  obtain ⟨-, inside⟩ := advance_of_between cursor (by decide) between
  rw [← Nat.add_assoc, Nat.add_sub_cancel, ← Nat.add_assoc]
  exact slice_of_between inside

/-- A string is gone over and added, with the text between its marks. -/
theorem scanSegment_string {body : List Char} (unquoted : '"' ∉ body)
    (stands : Stands source cursor before ((Lexeme.string body).text ++ rest)) :
    scanSegment source hand cursor.begun = .ok (cursor.past hand (.lexeme (.string body))) := by
  have text : (Lexeme.string body).text ++ rest = '"' :: (body ++ '"' :: rest) := by
    simp [Lexeme.text]
  have length : (encoded (Lexeme.string body).text).length = 1 + (encoded body).length + 1 := by
    change (encoded ('"' :: (body ++ ['"']))).length = _
    rw [length_encoded_cons (by decide), encoded_append, List.length_append, ← Nat.add_assoc]
    rfl
  have newlines : Segment.newlines (.lexeme (.string body)) = body.count '\n' := by
    simp [Segment.newlines, Segment.text, Lexeme.text]
  have whole := lexeme_of_between length (body.count '\n') stands.between
  rw [text] at stands
  have closing : ∀ c ∈ ('"' :: rest).head?, c = '"' := fun c first => (Option.some.inj first).symm
  obtain ⟨passed, quote⟩ := advanceWhile_string unquoted closing stands
  obtain ⟨closed, -⟩ := advance_of_between _ (by decide) quote
  have more := mt (atEnd_iff_of_between quote).mp (List.cons_ne_nil _ _)
  rw [scanSegment_quote stands.between]
  unfold scanString
  rw [passed, Breach.ok_bind, if_neg more, closed, Breach.ok_bind, forward_forward]
  change (slice source (cursor.current + 1)
    (cursor.current + (1 + (encoded body).length + 1) - 1) >>= _) = _
  rw [slice_string stands.between, Breach.ok_bind]
  change (lexeme source (cursor.begun.forward (1 + (encoded body).length + 1) (body.count '\n'))
    >>= _) = _
  rw [whole, Breach.ok_bind, past, Segment.text, length, newlines]
  rfl

/-- A string that is never closed is gone over to the end of the source and met as such. -/
theorem scanSegment_openString {body : List Char} (unquoted : '"' ∉ body)
    (stands : Stands source cursor before ('"' :: body)) :
    scanSegment source hand cursor.begun = .ok (cursor.past hand (.openString body)) := by
  have length : (encoded ('"' :: body)).length = 1 + (encoded body).length :=
    length_encoded_cons (by decide) body
  have newlines : Segment.newlines (.openString body) = body.count '\n' :=
    List.count_cons_of_ne (by decide)
  have nothing : ∀ c ∈ ([] : List Char).head?, c = '"' :=
    fun c first => (Option.not_mem_none c first).elim
  obtain ⟨passed, ending⟩ := advanceWhile_string unquoted nothing (by rwa [List.append_nil])
  have stop := (atEnd_iff_of_between ending).mpr rfl
  rw [scanSegment_quote stands.between]
  unfold scanString
  rw [passed, Breach.ok_bind, if_pos stop, past, Segment.text, length, newlines]
  rfl

/-! ## Stray characters -/

/-- A character that begins nothing is gone over whole, whatever number of octets it has. -/
theorem scanSegment_stray {c : Char} (stray : IsStray c)
    (between : Between source cursor.current before (c :: rest)) :
    scanSegment source hand cursor.begun = .ok (cursor.past hand (.stray c)) := by
  have no_newlines : Segment.newlines (.stray c) = 0 :=
    List.count_eq_zero.mpr fun member => stray.not_newline (List.mem_singleton.mp member).symm
  have length : (encoded [c]).length = c.utf8Size := by
    rw [encoded_cons, List.length_append, length_octets]
    rfl
  have decoded : slice source cursor.current source.utf8ByteSize =
      .ok (String.ofList (c :: rest)) := by
    have whole : Between source cursor.current before (c :: rest ++ []) := by
      rwa [List.append_nil]
    rw [← between.add_length]
    exact slice_of_between whole
  obtain ⟨octet, others, octets_eq⟩ := List.exists_cons_of_ne_nil (octets_ne_nil c)
  have here : ahead source cursor.begun.current = octet :: (others ++ encoded rest) := by
    change ahead source cursor.current = _
    rw [between.ahead, encoded_cons, octets_eq, List.cons_append]
  -- What begins is decided by one octet, before the character is known that it belongs to.
  have octet_stray : IsStray octet := by
    apply stray.of_mem_octets
    rw [octets_eq]
    exact List.mem_cons_self
  rw [scanSegment_of_not_single? (advance_of_ahead here) octet_stray.not_mark,
    if_neg octet_stray.not_quote, if_neg (by simp [octet_stray.not_blank]),
    if_neg octet_stray.not_newline, if_neg (by simp [octet_stray.not_digit]),
    if_neg (by simp [octet_stray.not_letter])]
  unfold strayCharacter
  change (slice source cursor.current source.utf8ByteSize >>= _) = _
  rw [decoded, Breach.ok_bind, past, Segment.text, length, no_newlines]
  simp only [String.toList_ofList, List.head?_cons]
  rfl

/-! ## All segments -/

/-- At a proper segment that ends before the rest, the cursor goes over it without a breach. -/
theorem scanSegment_eq {segment : Segment} (proper : segment.IsProper)
    (ends : segment.EndsBefore rest)
    (stands : Stands source cursor before (segment.text ++ rest)) :
    scanSegment source hand cursor.begun = .ok (cursor.past hand segment) := by
  cases segment with
  | blank c => exact scanSegment_blank proper stands.between
  | newline => exact scanSegment_newline stands
  | comment body => exact scanSegment_comment proper ends stands.between
  | lexeme piece =>
      cases piece with
      | punctuator mark => exact scanSegment_mark ends stands.between
      | word letters =>
          obtain ⟨first, others, rfl, letter, inside⟩ := proper
          exact scanSegment_word letter inside ends stands.between
      | number numeral => exact scanSegment_number proper ends stands.between
      | string body => exact scanSegment_string proper stands
  | stray c => exact scanSegment_stray proper stands.between
  | openString body =>
      cases ends
      rw [List.append_nil] at stands
      exact scanSegment_openString proper stands

end Cursor

end LoxLexer
