import LoxLexer.Proofs.Cursor.Basic

/-! # What a cursor does

Each move of a cursor, said by the octets ahead of it: reading and passing octets never fails where
there are octets, a loop stops at the first octet that is not of its class, and a slice between the
ends of characters is their text. -/

namespace LoxLexer

/-- The octets from a position on. -/
def ahead (source : String) (position : Nat) : List Char :=
  (encoded source.toList).drop position

/-- The position stands between two parts of the source. -/
structure Between (source : String) (position : Nat) (before rest : List Char) : Prop where
  whole : before ++ rest = source.toList
  position : position = (encoded before).length

section Ahead
variable {source : String} {position : Nat}

/-- The octet at a position is the first of those from there on. -/
theorem octetAt?_eq_head?_ahead (source : String) (position : Nat) :
    octetAt? source position = (ahead source position).head? := by
  rw [octetAt?_eq, ahead, List.head?_drop]

/-- Past the first of the octets ahead the others are ahead. -/
theorem ahead_add {front back : List Char} (here : ahead source position = front ++ back) :
    ahead source (position + front.length) = back := by
  unfold ahead at here ⊢
  rw [← List.drop_drop, here, List.drop_left]

/-- Nothing is ahead at the end of the source and past it, and nowhere else. -/
theorem ahead_eq_nil_iff : ahead source position = [] ↔ source.utf8ByteSize ≤ position := by
  rw [ahead, List.drop_eq_nil_iff, length_encoded]

namespace Between
variable {before middle rest : List Char}

/-- What is ahead between two parts of the source is the octets of the second. -/
theorem ahead (between : Between source position before rest) :
    LoxLexer.ahead source position = encoded rest := by
  rw [LoxLexer.ahead, ← between.whole, between.position, encoded_append, List.drop_left]

/-- Past a middle part the position stands between the rest and all before it. -/
theorem append (between : Between source position before (middle ++ rest)) :
    Between source (position + (encoded middle).length) (before ++ middle) rest where
  whole := by rw [List.append_assoc, between.whole]
  position := by rw [between.position, encoded_append, List.length_append]

/-- Between two parts of the source there is a boundary between characters. -/
theorem isBoundary (between : Between source position before rest) :
    IsBoundary source position := by
  rw [between.position]
  exact isBoundary_length_encoded between.whole

/-- From between two parts of the source it is as far to the end as the second is long. -/
theorem add_length (between : Between source position before rest) :
    position + (encoded rest).length = source.utf8ByteSize := by
  rw [← length_encoded, ← between.whole, between.position, encoded_append, List.length_append]

/-- Between two parts of the source a position is inside it, or at its end. -/
theorem le_utf8ByteSize (between : Between source position before rest) :
    position ≤ source.utf8ByteSize := by
  rw [← between.add_length]
  exact Nat.le_add_right _ _

end Between

end Ahead

namespace Cursor
variable {ρ : Type} {source : String} {cursor : Cursor ρ}

@[simp]
theorem forward_forward (cursor : Cursor ρ) (octets lines more_octets more_lines : Nat) :
    (cursor.forward octets lines).forward more_octets more_lines =
      cursor.forward (octets + more_octets) (lines + more_lines) := by
  simp [forward, Nat.add_assoc]

/-! ## Reading -/

/-- Peeking gives the first octet ahead, and NUL where there is none. -/
theorem peek_eq (source : String) (cursor : Cursor ρ) :
    peek source cursor = (ahead source cursor.current).head?.getD '\x00' := by
  rw [peek, octetAt?_eq_head?_ahead]

/-- A cursor is at the end where nothing is ahead. -/
theorem atEnd_iff : atEnd source cursor = true ↔ ahead source cursor.current = [] := by
  rw [atEnd, decide_eq_true_iff, ahead_eq_nil_iff]

/-- Where there is an octet ahead, it is read without a breach. -/
theorem advance_of_ahead {octet : Char} {rest : List Char}
    (here : ahead source cursor.current = octet :: rest) :
    advance source cursor = .ok (octet, cursor.forward 1 0) := by
  unfold advance
  rw [octetAt?_eq_head?_ahead, here]
  rfl

/-- The expected octet is accepted. -/
theorem accept_of_ahead {expected : Char} {rest : List Char}
    (here : ahead source cursor.current = expected :: rest) :
    accept source expected cursor = (true, cursor.forward 1 0) := by
  have more : ¬ atEnd source cursor = true := by simp [atEnd_iff, here]
  unfold accept
  rw [if_neg]
  simp [peek_eq, here, more]

/-- Another octet than the expected one is left where it is, and so is the end. -/
theorem accept_of_not_ahead {expected : Char}
    (other : (ahead source cursor.current).head? ≠ some expected) :
    accept source expected cursor = (false, cursor) := by
  unfold accept
  rw [if_pos]
  by_cases stop : ahead source cursor.current = []
  · exact .inr (atEnd_iff.mpr stop)
  · obtain ⟨octet, rest, here⟩ := List.exists_cons_of_ne_nil stop
    left
    rw [here] at other
    rw [peek_eq, here]
    exact fun same => other (congrArg some same)

/-! ## Loops -/

/-- The loop goes on for as long as there is an octet of the class. -/
def GoesOn (source : String) (more : Cursor ρ → Bool) (p : Char → Bool) : Prop :=
  ∀ cursor : Cursor ρ, more cursor = (ahead source cursor.current).head?.any p

/-- A loop that peeks goes on through a class that NUL is not in. -/
theorem goesOn_peek {p : Char → Bool} (nul : p '\x00' = false) :
    GoesOn source (fun cursor : Cursor ρ => p (peek source cursor)) p := by
  intro cursor
  simp only [peek_eq]
  cases (ahead source cursor.current).head? with
  | none => exact nul
  | some octet => rfl

/-- A loop up to a certain octet goes on to it, or to the end of the source. -/
theorem goesOn_bne (stop : Char) :
    GoesOn source (fun cursor : Cursor ρ => peek source cursor != stop && !atEnd source cursor)
      (· != stop) := by
  intro cursor
  by_cases nothing : ahead source cursor.current = []
  · simp [nothing, atEnd_iff.mpr nothing]
  · have more : atEnd source cursor = false := by
      rw [Bool.eq_false_iff, ne_eq, atEnd_iff]
      exact nothing
    obtain ⟨octet, rest, here⟩ := List.exists_cons_of_ne_nil nothing
    simp [peek_eq, more, here]

/-- The newlines that a loop counts. -/
def counted (counting : Bool) (octets : List Char) : Nat :=
  if counting then octets.count '\n' else 0

/-- Where there is an octet ahead, it is passed without a breach, if there is room for its line. -/
theorem pass_of_ahead {octet : Char} {rest : List Char} (counting : Bool)
    (here : ahead source cursor.current = octet :: rest)
    (room : counting = true → cursor.line + [octet].count '\n' ≤ source.utf8ByteSize + 1) :
    pass source counting cursor = .ok (cursor.forward 1 (counted counting [octet])) := by
  have newline : countNewline source counting cursor =
      .ok (cursor.forward 0 (counted counting [octet])) := by
    unfold countNewline counted
    rw [peek_eq, here]
    by_cases counts : counting = true ∧ octet = '\n'
    · obtain ⟨rfl, rfl⟩ := counts
      have fits : cursor.line ≤ source.utf8ByteSize := by simpa using room rfl
      simp [countLine, fits]
    · rw [if_neg (by simpa using counts)]
      cases counting with
      | false => rfl
      | true => simp [show ¬ octet = '\n' by simpa using counts, forward]
  have still : ahead source (cursor.forward 0 (counted counting [octet])).current =
      octet :: rest := here
  unfold pass
  rw [newline, Breach.ok_bind, advance_of_ahead still, Breach.ok_bind, forward_forward,
    Nat.zero_add]
  rfl

/-- The newlines counted in two texts are counted in one after the other. -/
theorem counted_append (counting : Bool) (first second : List Char) :
    counted counting (first ++ second) = counted counting first + counted counting second := by
  cases counting with
  | false => rfl
  | true => exact List.count_append

/-- A loop passes the octets of its class and stops where they end. -/
theorem advanceWhile_of_ahead {more : Cursor ρ → Bool} {p : Char → Bool}
    (goes_on : GoesOn source more p) (counting : Bool) {inside outside : List Char}
    (here : ahead source cursor.current = inside ++ outside)
    (inside_p : ∀ octet ∈ inside, p octet = true)
    (outside_p : ∀ octet ∈ outside.head?, p octet = false)
    (room : counting = true → cursor.line + inside.count '\n' ≤ source.utf8ByteSize + 1) :
    advanceWhile source more counting cursor =
      .ok (cursor.forward inside.length (counted counting inside)) := by
  induction inside generalizing cursor with
  | nil =>
      have stop : more cursor = false := by
        rw [goes_on, here, List.nil_append]
        cases first : outside.head? with
        | none => rfl
        | some octet => exact outside_p octet first
      rw [advanceWhile, stop]
      cases counting <;> rfl
  | cons octet inside ih =>
      obtain ⟨octet_p, inside_p⟩ := List.forall_mem_cons.mp inside_p
      have go : more cursor = true := by
        rw [goes_on, here]
        exact octet_p
      -- There is room for the line of this octet, and then for those of the others.
      have within : counting = true → cursor.line + [octet].count '\n' + inside.count '\n' ≤
          source.utf8ByteSize + 1 := by
        intro counts
        have whole := room counts
        rw [← List.singleton_append, List.count_append] at whole
        omega
      have passes : pass source counting cursor =
          .ok (cursor.forward 1 (counted counting [octet])) :=
        pass_of_ahead counting here fun counts => (Nat.le_add_right _ _).trans (within counts)
      rw [advanceWhile, if_pos go]
      split
      · rename_i next passed
        rw [passes] at passed
        cases passed
        have later : ahead source (cursor.current + [octet].length) = inside ++ outside :=
          ahead_add here
        rw [ih later inside_p, forward_forward, ← counted_append, Nat.add_comm 1]
        · rfl
        · rintro rfl
          exact within rfl
      · rename_i breach passed
        rw [passes] at passed
        cases passed

/-! ## Characters -/

section Characters
variable {before body rest : List Char}

/-- An ASCII character is read as one octet, and the cursor then stands behind it. -/
theorem advance_of_between (cursor : Cursor ρ) {c : Char} (ascii : c.toNat < 128)
    (between : Between source cursor.current before (c :: rest)) :
    advance source cursor = .ok (c, cursor.forward 1 0) ∧
      Between source (cursor.current + 1) (before ++ [c]) rest := by
  constructor
  · apply advance_of_ahead
    rw [between.ahead, encoded_cons_of_lt ascii]
  · have one : (encoded [c]).length = 1 := by rw [encoded_cons_of_lt ascii]; rfl
    have further : Between source (cursor.current + (encoded [c]).length) (before ++ [c]) rest :=
      between.append
    rwa [one] at further

theorem atEnd_iff_of_between (between : Between source cursor.current before rest) :
    atEnd source cursor = true ↔ rest = [] := by
  rw [atEnd_iff, between.ahead, encoded_eq_nil_iff]

/-- A loop passes the characters of its class and stops where they end, if the octets of a character
are in the class that the character is in. -/
theorem advanceWhile_of_between (cursor : Cursor ρ) {more : Cursor ρ → Bool} {p : Char → Bool}
    (goes_on : GoesOn source more p) (octetwise : Octetwise p) (counting : Bool)
    (between : Between source cursor.current before (body ++ rest))
    (body_p : ∀ c ∈ body, p c = true) (rest_p : ∀ c ∈ rest.head?, p c = false)
    (room : counting = true → cursor.line + body.count '\n' ≤ source.utf8ByteSize + 1) :
    advanceWhile source more counting cursor =
      .ok (cursor.forward (encoded body).length (counted counting body)) := by
  have here := between.ahead
  rw [encoded_append] at here
  have same : counted counting (encoded body) = counted counting body := by
    unfold counted
    rw [count_newline_encoded]
  rw [advanceWhile_of_ahead goes_on counting here (octetwise.forall_mem_encoded body_p)
    (octetwise.forall_head?_encoded rest_p) (by rwa [count_newline_encoded]), same]

/-- A loop that counts no newlines passes the characters of its class. -/
theorem advanceWhile_uncounted (cursor : Cursor ρ) {more : Cursor ρ → Bool} {p : Char → Bool}
    (goes_on : GoesOn source more p) (octetwise : Octetwise p)
    (between : Between source cursor.current before (body ++ rest))
    (body_p : ∀ c ∈ body, p c = true) (rest_p : ∀ c ∈ rest.head?, p c = false) :
    advanceWhile source more false cursor = .ok (cursor.forward (encoded body).length 0) :=
  advanceWhile_of_between cursor goes_on octetwise false between body_p rest_p
    fun counts => (Bool.false_ne_true counts).elim

/-- A slice between the ends of a part of the source is the text of the part. -/
theorem slice_of_between {start : Nat} (between : Between source start before (body ++ rest)) :
    slice source start (start + (encoded body).length) = .ok (String.ofList body) := by
  rw [slice, between.position, ← List.length_append, ← encoded_append,
    textBetween?_append between.whole]
  rfl

end Characters

end Cursor

end LoxLexer
