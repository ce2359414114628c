import Mathlib.Data.List.TakeWhile
import LoxLexer.Proofs.Source.Characters

/-! # Proper segments

A segment is proper if it can stand in some source, and it ends before a text if nothing at the
start of the text belongs to it. Both are said here without the cutting of sources: by the
characters that a segment holds, and by the few characters after it. So a blank or a newline always
ends a lexeme (`Lexeme.endsBefore_of_isSpace`), and what is appended behind a text of more than a
point changes nothing for the segment before the text (`Segment.EndsBefore.append`). -/

namespace LoxLexer

section Spans
variable {p : Char → Bool} {body rest : List Char}

/-- A run of characters of one class is taken whole, and nothing more, where the text after it
begins with a character of another class. -/
theorem span_append (inside : ∀ c ∈ body, p c = true)
    (outside : ∀ c ∈ rest.head?, p c = false) :
    (body ++ rest).takeWhile p = body ∧ (body ++ rest).dropWhile p = rest := by
  induction body with
  | nil =>
      cases rest with
      | nil => exact ⟨rfl, rfl⟩
      | cons c after =>
          have stop : ¬ p c = true := by simp [outside c rfl]
          exact ⟨List.takeWhile_cons_of_neg stop, List.dropWhile_cons_of_neg stop⟩
  | cons c body ih =>
      have first : p c = true := inside c List.mem_cons_self
      obtain ⟨taken, dropped⟩ := ih fun d member => inside d (List.mem_cons_of_mem c member)
      rw [List.cons_append, List.takeWhile_cons_of_pos first, List.dropWhile_cons_of_pos first]
      exact ⟨congrArg (c :: ·) taken, dropped⟩

/-- Where a run ends, no further character of its class follows. -/
theorem eq_false_of_mem_head?_dropWhile (cs : List Char) :
    ∀ c ∈ (cs.dropWhile p).head?, p c = false := by
  intro c first
  have outside := List.head?_dropWhile_not p cs
  rw [Option.mem_def.mp first] at outside
  exact outside

end Spans

/-- What stands before the first mark in a list is told by the list, and so is what stands after. -/
theorem append_cons_inj {α : Type} {mark : α} {first other rest later : List α}
    (before : mark ∉ first) (other_before : mark ∉ other)
    (same : first ++ mark :: rest = other ++ mark :: later) : first = other ∧ rest = later := by
  induction first generalizing other with
  | nil =>
      cases other with
      | nil => exact ⟨rfl, List.tail_eq_of_cons_eq same⟩
      | cons c other =>
          obtain rfl : mark = c := List.head_eq_of_cons_eq same
          exact (other_before List.mem_cons_self).elim
  | cons c first ih =>
      cases other with
      | nil =>
          obtain rfl : c = mark := List.head_eq_of_cons_eq same
          exact (before List.mem_cons_self).elim
      | cons d other =>
          obtain ⟨rfl, behind⟩ := List.cons.inj same
          obtain ⟨rfl, ends⟩ := ih (List.not_mem_of_not_mem_cons before)
            (List.not_mem_of_not_mem_cons other_before) behind
          exact ⟨rfl, ends⟩

namespace Numeral

/-- The numeral has digits before its point, and only digits on either side of it. -/
structure IsProper (numeral : Numeral) : Prop where
  whole_ne_nil : numeral.whole ≠ []
  whole_digit : ∀ c ∈ numeral.whole, c.isDigit = true
  fraction_digit : ∀ c ∈ numeral.fraction, c.isDigit = true

/-- After the numeral there is no digit and, unless it has a point already, no point that a digit
follows. -/
structure EndsBefore (numeral : Numeral) (rest : List Char) : Prop where
  digit : ∀ c ∈ rest.head?, c.isDigit = false
  point : numeral.fraction = [] → ∀ c after, rest = '.' :: c :: after → c.isDigit = false

end Numeral

namespace Punctuator

/-- After the mark there is nothing that makes a longer mark or a comment of it. -/
structure EndsBefore (mark : Punctuator) (rest : List Char) : Prop where
  equal : mark.withEqual? ≠ none → rest.head? ≠ some '='
  slash : mark = slash → rest.head? ≠ some '/'

end Punctuator

namespace Lexeme

/-- A word begins with a letter and goes on with word characters, a string has no quotation mark
inside. -/
def IsProper : Lexeme → Prop
  | punctuator _ => True
  | word letters =>
    ∃ first rest, letters = first :: rest ∧ isLetter first = true ∧
      ∀ c ∈ rest, isWordCharacter c = true
  | number numeral => numeral.IsProper
  | string body => '"' ∉ body

/-- Nothing at the start of the text belongs to the lexeme before it. -/
def EndsBefore : Lexeme → List Char → Prop
  | punctuator mark, rest => mark.EndsBefore rest
  | word _, rest => ∀ c ∈ rest.head?, isWordCharacter c = false
  | number numeral, rest => numeral.EndsBefore rest
  | string _, _ => True

end Lexeme

/-- The character begins nothing of Lox. -/
structure IsStray (c : Char) : Prop where
  not_blank : isBlank c = false
  not_newline : c ≠ '\n'
  not_quote : c ≠ '"'
  not_digit : c.isDigit = false
  not_letter : isLetter c = false
  not_mark : Punctuator.single? c = none

namespace Segment

/-- The segment can stand in some source. -/
def IsProper : Segment → Prop
  | blank c => isBlank c = true
  | newline => True
  | comment body => '\n' ∉ body
  | lexeme piece => piece.IsProper
  | stray c => IsStray c
  | openString body => '"' ∉ body

/-- Nothing at the start of the text belongs to the segment before it. -/
def EndsBefore : Segment → List Char → Prop
  | comment _, rest => ∀ c ∈ rest.head?, c = '\n'
  | lexeme piece, rest => piece.EndsBefore rest
  | openString _, rest => rest = []
  | blank _, _ | newline, _ | stray _, _ => True

end Segment

/-! ## First characters

The first character of a proper segment tells the classes apart. -/

namespace Punctuator

/-- A mark is no blank, newline, quotation mark or character of a word. -/
theorem class_of_single? {c : Char} {mark : Punctuator} (found : single? c = some mark) :
    isBlank c = false ∧ c ≠ '\n' ∧ c ≠ '"' ∧ isWordCharacter c = false := by
  have whole := text_of_single? found
  cases mark <;> cases whole <;> decide

/-- No mark can stand in a word. -/
theorem single?_eq_none_of_isWordCharacter {c : Char}
    (word : isWordCharacter c = true) : single? c = none := by
  rw [Option.eq_none_iff_forall_ne_some]
  intro mark found
  obtain ⟨-, -, -, not_word⟩ := class_of_single? found
  rw [word] at not_word
  cases not_word

/-- A mark is a single character, or a shorter mark with an equals sign. -/
theorem text_cases (mark : Punctuator) :
    (∃ c, single? c = some mark ∧ mark.text = [c]) ∨
      ∃ c short, single? c = some short ∧ short.withEqual? = some mark ∧ mark.text = [c, '='] := by
  cases mark with
  | bangEqual => exact .inr ⟨'!', bang, rfl, rfl, rfl⟩
  | equalEqual => exact .inr ⟨'=', equal, rfl, rfl, rfl⟩
  | greaterEqual => exact .inr ⟨'>', greater, rfl, rfl, rfl⟩
  | lessEqual => exact .inr ⟨'<', less, rfl, rfl, rfl⟩
  | _ => exact .inl ⟨_, rfl, rfl⟩

/-- A mark with an equals sign ends before anything. -/
theorem endsBefore_of_withEqual? {short mark : Punctuator} (double : short.withEqual? = some mark)
    (rest : List Char) : mark.EndsBefore rest := by
  cases short <;> cases double <;> exact ⟨fun longer => (longer rfl).elim, nofun⟩

end Punctuator

/-- A numeral has only digits and a point. -/
theorem Numeral.IsProper.isDigit_or_point {numeral : Numeral} (proper : numeral.IsProper) :
    ∀ c ∈ numeral.text, c.isDigit = true ∨ c = '.' := by
  obtain ⟨whole, fraction⟩ := numeral
  intro c member
  cases fraction with
  | nil => exact .inl (proper.whole_digit c member)
  | cons digit digits =>
      rcases List.mem_append.mp member with before | after
      · exact .inl (proper.whole_digit c before)
      rcases List.mem_cons.mp after with point | decimal
      · exact .inr point
      · exact .inl (proper.fraction_digit c decimal)

/-- No other character is in a numeral. -/
theorem Numeral.IsProper.notMem_text {numeral : Numeral} (proper : numeral.IsProper) {c : Char}
    (not_digit : c.isDigit = false) (not_point : c ≠ '.') : c ∉ numeral.text := by
  intro member
  rcases proper.isDigit_or_point c member with digit | point
  · rw [not_digit] at digit
    cases digit
  · exact not_point point

/-! ## Lines -/

/-- No lexeme but a string goes over the end of a line. -/
theorem Lexeme.IsProper.newline_notMem_text {piece : Lexeme} (proper : piece.IsProper)
    (other : ∀ body, piece ≠ string body) : '\n' ∉ piece.text := by
  cases piece with
  | punctuator mark => cases mark <;> decide
  | word letters =>
      obtain ⟨first, rest, rfl, letter, inside⟩ := proper
      intro member
      rcases List.mem_cons.mp member with rfl | later
      · cases letter
      · cases inside _ later
  | number numeral => exact Numeral.IsProper.notMem_text proper rfl (by decide)
  | string body => exact (other body rfl).elim

/-- Nor does a comment go over the end of a line, or what is of one character, but for a newline. -/
theorem Segment.IsProper.newline_notMem_text {segment : Segment} (proper : segment.IsProper)
    (other : segment ≠ newline) (closed : ∀ body, segment ≠ lexeme (.string body))
    (unclosed : ∀ body, segment ≠ openString body) : '\n' ∉ segment.text := by
  cases segment with
  | blank c => rcases isBlank_iff.mp proper with rfl | rfl <;> decide
  | newline => exact (other rfl).elim
  | comment body =>
      have one_line : '\n' ∉ body := proper
      simp [text, one_line]
  | lexeme piece =>
      exact Lexeme.IsProper.newline_notMem_text proper fun body same => closed body (same ▸ rfl)
  | stray c =>
      have stray : IsStray c := proper
      exact List.mem_singleton.not.mpr (Ne.symm stray.not_newline)
  | openString body => exact (unclosed body rfl).elim

/-! ## Blanks and newlines keep lexemes apart -/

/-- A blank or a newline, as they are written between tokens. -/
def IsSpace (c : Char) : Prop :=
  c = ' ' ∨ c = '\n'

theorem IsSpace.isWordCharacter {c : Char} (space : IsSpace c) : isWordCharacter c = false := by
  rcases space with rfl | rfl
  · rfl
  · rfl

theorem IsSpace.ne {c d : Char} (space : IsSpace c) (blank : d ≠ ' ') (newline : d ≠ '\n') :
    c ≠ d := by
  rcases space with rfl | rfl
  · exact blank.symm
  · exact newline.symm

/-- A numeral ends before a space. -/
theorem Numeral.endsBefore_of_isSpace (numeral : Numeral) {rest : List Char}
    (apart : ∀ c ∈ rest.head?, IsSpace c) : numeral.EndsBefore rest where
  digit := by
    intro c first
    obtain ⟨-, not_digit⟩ := Bool.or_eq_false_iff.mp (apart c first).isWordCharacter
    exact not_digit
  point := by
    intro _ c after whole
    subst whole
    have other : '.' ≠ '.' := (apart '.' rfl).ne (by simp) (by simp)
    exact (other rfl).elim

theorem Punctuator.endsBefore_of_isSpace (mark : Punctuator) {rest : List Char}
    (apart : ∀ c ∈ rest.head?, IsSpace c) : mark.EndsBefore rest where
  equal := by
    intro _ first
    exact (apart '=' first).ne (by simp) (by simp) rfl
  slash := by
    intro _ first
    exact (apart '/' first).ne (by simp) (by simp) rfl

/-- Every lexeme ends before a blank, a newline or the end of the source. -/
theorem Lexeme.endsBefore_of_isSpace (piece : Lexeme) {rest : List Char}
    (apart : ∀ c ∈ rest.head?, IsSpace c) : piece.EndsBefore rest := by
  cases piece with
  | punctuator mark => exact mark.endsBefore_of_isSpace apart
  | word letters =>
      intro c first
      exact (apart c first).isWordCharacter
  | number numeral => exact numeral.endsBefore_of_isSpace apart
  | string body => trivial

/-! ## Text that begins otherwise

A lexeme still ends where other characters come first, as long as none of them goes on with it. -/

/-- The character goes on with no lexeme. -/
structure IsApart (c : Char) : Prop where
  not_word : isWordCharacter c = false
  not_equal : c ≠ '='
  not_slash : c ≠ '/'
  not_point : c ≠ '.'

/-- A space goes on with no lexeme. -/
theorem IsSpace.isApart {c : Char} (space : IsSpace c) : IsApart c where
  not_word := space.isWordCharacter
  not_equal := space.ne (by simp) (by simp)
  not_slash := space.ne (by simp) (by simp)
  not_point := space.ne (by simp) (by simp)

/-- Only characters that go on with no lexeme come first in one text and not in the other. -/
def BeginsAs (other rest : List Char) : Prop :=
  ∀ c ∈ other.head?, IsApart c ∨ c ∈ rest.head?

namespace BeginsAs
variable {other rest : List Char}

/-- What goes on with a lexeme comes first in one text only if it does in the other. -/
theorem head?_ne (begins : BeginsAs other rest) {c : Char} (joins : ¬ IsApart c)
    (absent : rest.head? ≠ some c) : other.head? ≠ some c := by
  intro first
  rcases begins c first with apart | before
  · exact joins apart
  · exact absent before

/-- If no word goes on in one text, none does in the other. -/
theorem isWordCharacter (begins : BeginsAs other rest)
    (ends : ∀ c ∈ rest.head?, isWordCharacter c = false) :
    ∀ c ∈ other.head?, isWordCharacter c = false := by
  intro c first
  rcases begins c first with apart | before
  · exact apart.not_word
  · exact ends c before

theorem isDigit (begins : BeginsAs other rest) (ends : ∀ c ∈ rest.head?, c.isDigit = false) :
    ∀ c ∈ other.head?, c.isDigit = false := by
  intro c first
  rcases begins c first with apart | before
  · exact (Bool.or_eq_false_iff.mp apart.not_word).2
  · exact ends c before

end BeginsAs

/-- Behind a point the second character counts too. -/
theorem Lexeme.EndsBefore.of_beginsAs {piece : Lexeme} {other rest : List Char}
    (ends : piece.EndsBefore rest) (begins : BeginsAs other rest)
    (pointed : ∀ tail, other = '.' :: tail → ∃ after, rest = '.' :: after ∧ BeginsAs tail after) :
    piece.EndsBefore other := by
  cases piece with
  | punctuator mark =>
      refine ⟨fun longer => ?_, fun slash => ?_⟩
      · exact begins.head?_ne (fun apart => apart.not_equal rfl) (ends.equal longer)
      · exact begins.head?_ne (fun apart => apart.not_slash rfl) (ends.slash slash)
  | word letters => exact begins.isWordCharacter ends
  | number numeral =>
      refine ⟨begins.isDigit ends.digit, ?_⟩
      intro pointless c tail whole
      obtain ⟨after, rfl, behind⟩ := pointed (c :: tail) whole
      have others_not_digit : ∀ d ∈ after.head?, d.isDigit = false := by
        intro d first
        obtain ⟨others, rfl⟩ := List.head?_eq_some_iff.mp first
        exact ends.point pointless d others rfl
      exact behind.isDigit others_not_digit c rfl
  | string body => trivial

/-! ## What is appended to the text behind

Whether a segment ends before a text depends on the first two characters of the text, and on the
second only where a numeral stands before a point. -/

namespace Segment

/-- More text changes nothing behind a text that is more than a lone point. -/
theorem EndsBefore.append {segment : Segment} {rest : List Char} (ends : segment.EndsBefore rest)
    (some_rest : rest ≠ []) (not_point : rest ≠ ['.']) (later : List Char) :
    segment.EndsBefore (rest ++ later) := by
  obtain ⟨first, after, rfl⟩ := List.exists_cons_of_ne_nil some_rest
  cases segment with
  | lexeme piece =>
      cases piece with
      | number numeral =>
          refine ⟨ends.digit, ?_⟩
          intro pointless c others whole
          cases after with
          | nil =>
              obtain rfl : first = '.' := List.head_eq_of_cons_eq whole
              exact (not_point rfl).elim
          | cons second after =>
              cases whole
              exact ends.point pointless c after rfl
      | punctuator mark => exact ⟨ends.equal, ends.slash⟩
      | _ => exact ends
  | openString body => cases ends
  | _ => exact ends

/-- All segments but an open string end before a newline. -/
theorem endsBefore_newline {segment : Segment} (closed : ∀ body, segment ≠ openString body)
    (later : List Char) : segment.EndsBefore ('\n' :: later) := by
  have space : ∀ c ∈ ('\n' :: later).head?, IsSpace c := by
    intro c first
    exact .inr (Option.some.inj first).symm
  cases segment with
  | comment body => exact fun c first => (Option.some.inj first).symm
  | lexeme piece => exact piece.endsBefore_of_isSpace space
  | openString body => exact (closed body rfl).elim
  | _ => trivial

end Segment

end LoxLexer
