import LoxLexer.Proofs.Source.Proper

/-! # Cuts

The first segment of a text is proper and ends before the rest, and it is the only segment that is
and does (`Segment.split_append`). So a list of segments is the cut of its own text if and only if
each of its segments is proper and ends before the text of those after it
(`Segment.ofSource_eq_iff`). Everything about scans rests on this. -/

namespace LoxLexer

namespace Numeral

/-- A numeral begins with a digit. -/
theorem IsProper.isDigit_first {numeral : Numeral} (proper : numeral.IsProper) {first : Char}
    {rest after : List Char} (text : numeral.text ++ rest = first :: after) :
    first.isDigit = true := by
  obtain ⟨whole, fraction⟩ := numeral
  obtain ⟨c, cs, rfl⟩ := List.exists_cons_of_ne_nil proper.whole_ne_nil
  have digit : c.isDigit = true := proper.whole_digit c List.mem_cons_self
  cases fraction with
  | nil =>
      cases text
      exact digit
  | cons d digits =>
      cases text
      exact digit

/-- With a digit behind it, a point belongs to the numeral. -/
theorem split_pointed {whole : List Char} {digit : Char}
    (whole_digit : ∀ c ∈ whole, c.isDigit = true) (is_digit : digit.isDigit = true)
    (after : List Char) :
    split (whole ++ '.' :: digit :: after) =
      (⟨whole, digit :: after.takeWhile Char.isDigit⟩, after.dropWhile Char.isDigit) := by
  have point : ∀ c ∈ ('.' :: digit :: after).head?, c.isDigit = false := by
    intro c first
    obtain rfl : '.' = c := Option.some.inj first
    rfl
  obtain ⟨taken, dropped⟩ := span_append whole_digit point
  unfold split
  rw [taken, dropped]
  simp only [List.takeWhile_cons_of_pos is_digit, List.dropWhile_cons_of_pos is_digit]

/-- A numeral that ends where it does is split off. -/
theorem split_append {numeral : Numeral} {rest : List Char} (proper : numeral.IsProper)
    (ends : numeral.EndsBefore rest) : split (numeral.text ++ rest) = (numeral, rest) := by
  obtain ⟨whole, fraction⟩ := numeral
  cases fraction with
  | nil =>
      obtain ⟨taken, dropped⟩ := span_append proper.whole_digit ends.digit
      unfold split text
      rw [taken, dropped]
      split
      · rename_i after
        have pointless : after.takeWhile Char.isDigit = [] := by
          cases after with
          | nil => rfl
          | cons c after =>
              exact List.takeWhile_cons_of_neg (by simp [ends.point rfl c after rfl])
        rw [pointless]
      · rfl
  | cons digit digits =>
      obtain ⟨is_digit, digits_digit⟩ := List.forall_mem_cons.mp proper.fraction_digit
      obtain ⟨taken, dropped⟩ := span_append digits_digit ends.digit
      unfold text
      rw [List.append_assoc]
      change split (whole ++ '.' :: digit :: (digits ++ rest)) = _
      rw [split_pointed proper.whole_digit is_digit, taken, dropped]

/-- Where a digit comes first, what is split off is a proper numeral. -/
theorem split_isProper {first : Char} {rest : List Char} (digit : first.isDigit = true) :
    (split (first :: rest)).1.IsProper := by
  have whole_ne_nil : (first :: rest).takeWhile Char.isDigit ≠ [] := by simp [digit]
  have whole_digit : ∀ c ∈ (first :: rest).takeWhile Char.isDigit, c.isDigit = true :=
    fun c member => List.mem_takeWhile_imp member
  unfold split
  split
  · rename_i after _
    split
    · exact ⟨whole_ne_nil, whole_digit, nofun⟩
    · exact ⟨whole_ne_nil, whole_digit, fun c member => List.mem_takeWhile_imp member⟩
  · exact ⟨whole_ne_nil, whole_digit, nofun⟩

/-- A numeral is split off where it ends. -/
theorem split_endsBefore (cs : List Char) : (split cs).1.EndsBefore (split cs).2 := by
  unfold split
  split
  · rename_i after _
    split
    · rename_i pointless
      refine ⟨?_, ?_⟩
      · intro c first
        obtain rfl : '.' = c := Option.some.inj first
        rfl
      intro _ c later point
      cases point
      by_contra digit
      rw [List.takeWhile_cons_of_pos (by simpa using digit)] at pointless
      cases pointless
    · rename_i fraction pointed
      exact ⟨eq_false_of_mem_head?_dropWhile after, fun pointless => (pointed pointless).elim⟩
  · rename_i after unpointed
    refine ⟨eq_false_of_mem_head?_dropWhile cs, ?_⟩
    intro _ c later point
    exact (unpointed (c :: later) point).elim

end Numeral

namespace Punctuator

/-- A text that begins with a mark and goes on with nothing that belongs to it begins with no longer
mark. -/
theorem split?_append {mark : Punctuator} {first : Char} {rest after : List Char}
    (ends : mark.EndsBefore rest) (text : mark.text ++ rest = first :: after) :
    split? first after = some (mark, rest) := by
  rcases mark.text_cases with ⟨c, single, written⟩ | ⟨c, short, single, double, written⟩
  · rw [written] at text
    cases text
    unfold split?
    rw [single, Option.map_some]
    split
    · rename_i longer later double equal
      exact (ends.equal (by rw [double]; nofun) (congrArg List.head? equal)).elim
    · rfl
  · rw [written] at text
    cases text
    unfold split?
    rw [single, Option.map_some, double]
    rfl

/-- A mark is split off where it ends, unless it is the first slash of a comment. -/
theorem endsBefore_of_split? {first : Char} {rest after : List Char} {mark : Punctuator}
    (found : split? first rest = some (mark, after))
    (apart : first = '/' → rest.head? ≠ some '/') : mark.EndsBefore after := by
  obtain ⟨short, single, cut⟩ := Option.map_eq_some_iff.mp found
  split at cut
  · rename_i longer later double
    cases cut
    exact endsBefore_of_withEqual? double after
  · rename_i single_only
    cases cut
    refine ⟨fun longer equal => ?_, ?_⟩
    · obtain ⟨double, is_double⟩ := Option.ne_none_iff_exists'.mp longer
      obtain ⟨later, rfl⟩ := List.head?_eq_some_iff.mp equal
      exact single_only double later is_double rfl
    · intro same
      subst same
      have slash : [first] = ['/'] := (text_of_single? single).symm
      exact apart (List.head_eq_of_cons_eq slash)

end Punctuator

namespace Segment

section Split
variable {first : Char} {rest : List Char}

theorem split_of_isBlank (blank : isBlank first = true) :
    split first rest = (.blank first, rest) := by
  unfold split
  rw [if_pos blank]

theorem split_newline : split '\n' rest = (newline, rest) := rfl

theorem split_quote : split '"' rest = splitString rest := rfl

theorem split_slash_slash :
    split '/' ('/' :: rest) =
      (comment (rest.takeWhile (· != '\n')), rest.dropWhile (· != '\n')) := rfl

/-- Where a digit comes first, a numeral is split off. -/
theorem split_of_isDigit (digit : first.isDigit = true) :
    split first rest =
      (lexeme (.number (Numeral.split (first :: rest)).1), (Numeral.split (first :: rest)).2) := by
  have word := isWordCharacter_of_isDigit digit
  unfold split
  rw [if_neg (by simp [isBlank_eq_false_of_isWordCharacter word]),
    if_neg (ne_of_isWordCharacter word rfl), if_neg (ne_of_isWordCharacter word rfl), if_pos digit]

/-- Where a letter comes first, a word is split off. -/
theorem split_of_isLetter (letter : isLetter first = true) :
    split first rest =
      (lexeme (.word (first :: rest.takeWhile isWordCharacter)),
        rest.dropWhile isWordCharacter) := by
  have word := isWordCharacter_of_isLetter letter
  unfold split
  rw [if_neg (by simp [isBlank_eq_false_of_isWordCharacter word]),
    if_neg (ne_of_isWordCharacter word rfl), if_neg (ne_of_isWordCharacter word rfl),
    if_neg (by simp [isDigit_eq_false_of_isLetter letter]), if_pos letter]

/-- Where no other class begins, there is a mark or a stray character. -/
theorem split_of_other (not_blank : isBlank first = false) (not_newline : first ≠ '\n')
    (not_quote : first ≠ '"') (not_word : isWordCharacter first = false)
    (apart : first = '/' → rest.head? ≠ some '/') :
    split first rest =
      match Punctuator.split? first rest with
      | some (mark, after) => (lexeme (.punctuator mark), after)
      | none => (stray first, rest) := by
  obtain ⟨not_letter, not_digit⟩ := Bool.or_eq_false_iff.mp not_word
  unfold split
  rw [if_neg (by simp [not_blank]), if_neg not_newline, if_neg not_quote,
    if_neg (by simp [not_digit]), if_neg (by simp [not_letter])]
  split
  · exact (apart rfl rfl).elim
  · rfl

end Split

section Strings
variable {stop : Char} {body : List Char}

theorem bne_of_not_mem (absent : stop ∉ body) : ∀ c ∈ body, (c != stop) = true := by
  intro c member
  rw [bne_iff_ne]
  exact ne_of_mem_of_not_mem member absent

private theorem not_mem_takeWhile (cs : List Char) : stop ∉ cs.takeWhile (· != stop) := by
  intro member
  have other := List.mem_takeWhile_imp (p := fun c => c != stop) member
  exact bne_iff_ne.mp other rfl

/-- A string is split off at the first quotation mark. -/
theorem splitString_closed (unquoted : '"' ∉ body) (rest : List Char) :
    splitString (body ++ '"' :: rest) = (lexeme (.string body), rest) := by
  have closing : ∀ c ∈ ('"' :: rest).head?, (c != '"') = false := by
    intro c first
    obtain rfl : '"' = c := Option.some.inj first
    rfl
  obtain ⟨taken, dropped⟩ := span_append (bne_of_not_mem unquoted) closing
  unfold splitString
  rw [taken, dropped]

/-- Without a quotation mark, the string is open to the end. -/
theorem splitString_open (unquoted : '"' ∉ body) : splitString body = (openString body, []) := by
  have ending : ∀ c ∈ ([] : List Char).head?, (c != '"') = false := nofun
  obtain ⟨taken, dropped⟩ := span_append (bne_of_not_mem unquoted) ending
  rw [List.append_nil] at taken dropped
  unfold splitString
  rw [taken, dropped]

/-- A string that is split off is proper. -/
theorem splitString_isProper (after : List Char) : (splitString after).1.IsProper := by
  unfold splitString
  split
  · exact not_mem_takeWhile after
  · exact not_mem_takeWhile after

theorem splitString_endsBefore (after : List Char) :
    (splitString after).1.EndsBefore (splitString after).2 := by
  unfold splitString
  split
  · rfl
  · trivial

end Strings

/-- The segment that comes first is one that can stand in a source. -/
theorem split_isProper (first : Char) (rest : List Char) : (split first rest).1.IsProper := by
  unfold split
  split
  · rename_i blank
    exact blank
  split
  · trivial
  split
  · exact splitString_isProper rest
  split
  · rename_i digit
    exact Numeral.split_isProper digit
  split
  · rename_i letter
    exact ⟨first, _, rfl, letter, fun c member => List.mem_takeWhile_imp member⟩
  rename_i not_blank not_newline not_quote not_digit not_letter
  split
  · exact not_mem_takeWhile _
  split
  · trivial
  · rename_i none
    exact {
      not_blank := by simpa using not_blank
      not_newline := not_newline
      not_quote := not_quote
      not_digit := by simpa using not_digit
      not_letter := by simpa using not_letter
      not_mark := Option.map_eq_none_iff.mp none }

/-- The segment that comes first takes all that belongs to it. -/
theorem split_endsBefore (first : Char) (rest : List Char) :
    (split first rest).1.EndsBefore (split first rest).2 := by
  unfold split
  split
  · trivial
  split
  · trivial
  split
  · exact splitString_endsBefore rest
  split
  · exact Numeral.split_endsBefore (first :: rest)
  split
  · exact eq_false_of_mem_head?_dropWhile rest
  split
  · rename_i after _ _ _ _ _
    intro c member
    simpa using eq_false_of_mem_head?_dropWhile after c member
  · rename_i apart
    split
    · rename_i mark after found
      refine Punctuator.endsBefore_of_split? found ?_
      intro first_slash second_slash
      subst first_slash
      obtain ⟨later, rfl⟩ := List.head?_eq_some_iff.mp second_slash
      exact apart later rfl rfl
    · trivial

private theorem split_append_lexeme {piece : Lexeme} {first : Char} {rest after : List Char}
    (proper : piece.IsProper) (ends : piece.EndsBefore rest)
    (text : piece.text ++ rest = first :: after) :
    split first after = (lexeme piece, rest) := by
  cases piece with
  | punctuator mark =>
      have found := Punctuator.split?_append ends text
      obtain ⟨short, single, cut⟩ := Option.map_eq_some_iff.mp found
      obtain ⟨not_blank, not_newline, not_quote, not_word⟩ := Punctuator.class_of_single? single
      have apart : first = '/' → after.head? ≠ some '/' := by
        intro slash
        subst slash
        obtain rfl : Punctuator.slash = short := Option.some.inj single
        cases cut
        exact ends.slash rfl
      rw [split_of_other not_blank not_newline not_quote not_word apart, found]
  | word letters =>
      obtain ⟨head, tail, rfl, letter, inside⟩ := proper
      cases text
      obtain ⟨taken, dropped⟩ := span_append inside ends
      change split first (tail ++ rest) = _
      rw [split_of_isLetter letter, taken, dropped]
  | number numeral =>
      have digit : first.isDigit = true := proper.isDigit_first text
      change numeral.text ++ rest = first :: after at text
      rw [split_of_isDigit digit, ← text, Numeral.split_append proper ends]
  | string body =>
      cases text
      change split '"' (body ++ ['"'] ++ rest) = _
      rw [split_quote, List.append_assoc]
      exact splitString_closed proper rest

/-- A text that begins with a proper segment, and goes on with nothing that belongs to it, is split
after that segment. -/
theorem split_append {segment : Segment} {first : Char} {rest after : List Char}
    (proper : segment.IsProper) (ends : segment.EndsBefore rest)
    (text : segment.text ++ rest = first :: after) : split first after = (segment, rest) := by
  cases segment with
  | blank c =>
      cases text
      exact split_of_isBlank proper
  | newline =>
      cases text
      exact split_newline
  | comment body =>
      cases text
      have newline : ∀ c ∈ rest.head?, (c != '\n') = false :=
        fun c first => by simp [ends c first]
      obtain ⟨taken, dropped⟩ := span_append (bne_of_not_mem proper) newline
      change split '/' ('/' :: (body ++ rest)) = _
      rw [split_slash_slash, taken, dropped]
  | lexeme piece => exact split_append_lexeme proper ends text
  | stray c =>
      cases text
      change split first rest = _
      have apart : first = '/' → rest.head? ≠ some '/' := by
        intro slash
        subst slash
        cases proper.not_mark
      have none : Punctuator.split? first rest = none :=
        Option.map_eq_none_iff.mpr proper.not_mark
      rw [split_of_other proper.not_blank proper.not_newline proper.not_quote
        (Bool.or_eq_false_iff.mpr ⟨proper.not_letter, proper.not_digit⟩) apart, none]
  | openString body =>
      cases ends
      cases text
      change split '"' (body ++ []) = _
      rw [split_quote, List.append_nil, splitString_open proper]

/-- Each segment of the list is proper and ends before the text of those after it. -/
def IsCut : List Segment → Prop
  | [] => True
  | segment :: rest =>
    segment.IsProper ∧ segment.EndsBefore (rest.flatMap text) ∧ IsCut rest

/-- The segments of a cut are proper. -/
theorem IsCut.isProper {segments : List Segment} (cut : IsCut segments) :
    ∀ segment ∈ segments, segment.IsProper := by
  induction segments with
  | nil => nofun
  | cons segment rest ih => exact List.forall_mem_cons.mpr ⟨cut.1, ih cut.2.2⟩

/-- The segments of a source are a cut. -/
theorem isCut_ofSource (cs : List Char) : IsCut (ofSource cs) := by
  fun_induction ofSource cs with
  | case1 => trivial
  | case2 first rest ih =>
      refine ⟨split_isProper first rest, ?_, ih⟩
      rw [flatMap_text_ofSource]
      exact split_endsBefore first rest

theorem IsProper.text_ne_nil {segment : Segment} (proper : segment.IsProper) :
    segment.text ≠ [] := by
  cases segment with
  | lexeme piece =>
      cases piece with
      | punctuator mark => exact Punctuator.text_ne_nil mark
      | word letters =>
          obtain ⟨first, rest, rfl, -⟩ := proper
          nofun
      | number numeral =>
          obtain ⟨whole, fraction⟩ := numeral
          obtain ⟨c, cs, rfl⟩ := List.exists_cons_of_ne_nil proper.whole_ne_nil
          cases fraction <;> nofun
      | string body => nofun
  | _ => nofun

theorem endsBefore_nil (segment : Segment) : segment.EndsBefore [] := by
  cases segment with
  | lexeme piece =>
      cases piece with
      | punctuator mark => exact ⟨nofun, nofun⟩
      | number numeral => exact ⟨nofun, nofun⟩
      | word letters => nofun
      | string body => trivial
  | comment body => nofun
  | openString body => rfl
  | _ => trivial

/-- A proper segment is told by its text. -/
theorem IsProper.eq_of_text {a b : Segment} (proper_a : a.IsProper) (proper_b : b.IsProper)
    (same : a.text = b.text) : a = b := by
  obtain ⟨first, after, text⟩ := List.exists_cons_of_ne_nil proper_a.text_ne_nil
  have split_a := split_append proper_a a.endsBefore_nil
    ((List.append_nil _).trans text)
  have split_b := split_append proper_b b.endsBefore_nil
    ((List.append_nil _).trans (same.symm.trans text))
  exact congrArg Prod.fst (split_a.symm.trans split_b)

theorem IsProper.exists_cons {segment : Segment} (proper : segment.IsProper) (rest : List Char) :
    ∃ first after, segment.text ++ rest = first :: after :=
  List.exists_cons_of_ne_nil fun empty => proper.text_ne_nil (List.append_eq_nil_iff.mp empty).1

/-- A segment that ends where it does comes first in the source. -/
theorem ofSource_append {segment : Segment} {rest : List Char} (proper : segment.IsProper)
    (ends : segment.EndsBefore rest) :
    ofSource (segment.text ++ rest) = segment :: ofSource rest := by
  obtain ⟨first, after, text⟩ := proper.exists_cons rest
  rw [text, ofSource, split_append proper ends text]

/-- A cut is found again in its text. -/
theorem ofSource_flatMap_text {segments : List Segment} (cut : IsCut segments) :
    ofSource (segments.flatMap text) = segments := by
  induction segments with
  | nil => rw [List.flatMap_nil, ofSource]
  | cons segment rest ih =>
      obtain ⟨proper, ends, later⟩ := cut
      rw [List.flatMap_cons, ofSource_append proper ends, ih later]

/-- Only the empty cut has no text. -/
theorem IsCut.eq_nil_of_text {segments : List Segment} (cut : IsCut segments)
    (empty : segments.flatMap text = []) : segments = [] := by
  rw [← ofSource_flatMap_text cut, empty, ofSource]

/-- The cut of a source is the one list of segments with its text in which each segment is proper
and ends before the text of those after it. -/
theorem ofSource_eq_iff {cs : List Char} {segments : List Segment} :
    ofSource cs = segments ↔ segments.flatMap text = cs ∧ IsCut segments := by
  constructor
  · intro same
    subst same
    exact ⟨flatMap_text_ofSource cs, isCut_ofSource cs⟩
  · intro same
    obtain ⟨rfl, cut⟩ := same
    exact ofSource_flatMap_text cut

end Segment

end LoxLexer
