import LoxLexer.Proofs.Scan.Placed
import LoxLexer.Proofs.Token.Keyword

/-! # Maximal munch

The lexical classes of Lox are sets of texts (`Lexical`). A text is munched (`Munched`) by taking at
each place the longest text of any class, or, where no class has a text that begins there, a single
stray character or a string that is never closed. Both are said without the scan: how it finds the
longest text is no part of them. A scan leaves what munching gives
(`munched_iff_scanWith`). -/

namespace LoxLexer

/-- The text is in a lexical class, and makes a token of the given content or none. -/
inductive Lexical : List Char → Option Token.Content → Prop
  | space : Lexical [' '] none
  | tab : Lexical ['\t'] none
  | newline : Lexical ['\n'] none
  | comment {body : List Char} (one_line : '\n' ∉ body) : Lexical ('/' :: '/' :: body) none
  | mark (mark : Punctuator) :
      Lexical mark.text (some ⟨.punctuator mark, String.ofList mark.text, none⟩)
  | string {body : List Char} (unquoted : '"' ∉ body) :
      Lexical ('"' :: body ++ ['"'])
        (some ⟨.string, String.ofList ('"' :: body ++ ['"']), some (.string (String.ofList body))⟩)
  | whole {digits : List Char} (some_digit : digits ≠ [])
      (digit : ∀ c ∈ digits, IsDecimalDigit c) :
      Lexical digits
        (some ⟨.number, String.ofList digits, some (.number (Numeral.mk digits []).value)⟩)
  | fractional {digits decimals : List Char} (some_digit : digits ≠ [])
      (digit : ∀ c ∈ digits, IsDecimalDigit c) (some_decimal : decimals ≠ [])
      (decimal : ∀ c ∈ decimals, IsDecimalDigit c) :
      Lexical (digits ++ '.' :: decimals)
        (some ⟨.number, String.ofList (digits ++ '.' :: decimals),
          some (.number (Numeral.mk digits decimals).value)⟩)
  | keyword (word : Keyword) :
      Lexical word.spelling.toList (some ⟨.keyword word, word.spelling, none⟩)
  | identifier {first : Char} {rest : List Char} (start : IsWordStart first)
      (inside : ∀ c ∈ rest, IsWordPart c)
      (free : ∀ word : Keyword, word.spelling ≠ String.ofList (first :: rest)) :
      Lexical (first :: rest) (some ⟨.identifier, String.ofList (first :: rest), none⟩)

/-- Munching the text gives tokens of these contents, and these faults. -/
inductive Munched : List Char → List Token.Content → List Fault → Prop
  | nil : Munched [] [.eof] []
  | longest {cs text rest : List Char} {content? : Option Token.Content}
      {contents : List Token.Content} {faults : List Fault}
      (cut : text ++ rest = cs) (lexical : Lexical text content?)
      (longest : ∀ other content?, other <+: cs → Lexical other content? →
        other.length ≤ text.length)
      (later : Munched rest contents faults) :
      Munched cs (content?.toList ++ contents) faults
  | openString {body : List Char}
      (none : ∀ text content?, text <+: '"' :: body → ¬ Lexical text content?) :
      Munched ('"' :: body) [.eof] [.unterminatedString]
  | stray {c : Char} {rest : List Char} {contents : List Token.Content} {faults : List Fault}
      (not_quote : c ≠ '"')
      (none : ∀ text content?, text <+: c :: rest → ¬ Lexical text content?)
      (later : Munched rest contents faults) :
      Munched (c :: rest) contents (.unexpectedCharacter c :: faults)

/-! ## Lexical classes and segments -/

namespace Keyword

/-- The spelling of a keyword can stand in a source. -/
theorem isProper_word (keyword : Keyword) : (Lexeme.word keyword.spelling.toList).IsProper := by
  cases keyword <;> exact ⟨_, _, rfl, rfl, List.all_eq_true.mp rfl⟩

end Keyword

namespace Segment

/-- The segment is of a lexical class, and nothing is wrong with it. -/
def IsLexical : Segment → Prop
  | stray _ | openString _ => False
  | blank _ | newline | comment _ | lexeme _ => True

/-- A word is a keyword if its letters spell one, and an identifier if they do not. -/
theorem content?_word (letters : List Char) :
    (lexeme (.word letters)).content? =
      some ⟨(Keyword.ofSpelling? (String.ofList letters)).elim .identifier .keyword,
        String.ofList letters, none⟩ :=
  rfl

/-- Segments that are lexical are so by the specification. -/
theorem IsProper.lexical {segment : Segment} (proper : segment.IsProper)
    (lexical : segment.IsLexical) : Lexical segment.text segment.content? := by
  cases segment with
  | blank c =>
      rcases isBlank_iff.mp proper with rfl | rfl
      · exact .space
      · exact .tab
  | newline => exact .newline
  | comment body => exact .comment proper
  | lexeme piece =>
      cases piece with
      | punctuator mark => exact .mark mark
      | word letters =>
          obtain ⟨first, rest, rfl, letter, inside⟩ := proper
          cases known : Keyword.ofSpelling? (String.ofList (first :: rest)) with
          | none =>
              rw [content?_word, known]
              exact .identifier (isLetter_iff.mp letter)
                (fun c member => isWordCharacter_iff.mp (inside c member))
                (Keyword.ofSpelling?_eq_none_iff.mp known)
          | some word =>
              have keyword := Lexical.keyword word
              rw [Keyword.ofSpelling?_eq_some_iff.mp known, String.toList_ofList] at keyword
              rw [content?_word, known]
              exact keyword
      | number numeral =>
          obtain ⟨digits, decimals⟩ := numeral
          have digit : ∀ c ∈ digits, IsDecimalDigit c :=
            fun c member => isDigit_iff.mp (proper.whole_digit c member)
          cases decimals with
          | nil => exact .whole proper.whole_ne_nil digit
          | cons decimal decimals =>
              exact .fractional proper.whole_ne_nil digit nofun
                fun c member => isDigit_iff.mp (proper.fraction_digit c member)
      | string body => exact .string proper
  | stray c => exact lexical.elim
  | openString body => exact lexical.elim

end Segment

/-- A text of a lexical class is that of a proper segment. -/
theorem Lexical.exists_segment {text : List Char} {content? : Option Token.Content}
    (lexical : Lexical text content?) :
    ∃ segment : Segment, segment.IsProper ∧ segment.IsLexical ∧ segment.text = text ∧
      segment.content? = content? := by
  cases lexical with
  | space => exact ⟨.blank ' ', rfl, trivial, rfl, rfl⟩
  | tab => exact ⟨.blank '\t', rfl, trivial, rfl, rfl⟩
  | newline => exact ⟨.newline, trivial, trivial, rfl, rfl⟩
  | comment one_line => exact ⟨.comment _, one_line, trivial, rfl, rfl⟩
  | mark mark => exact ⟨.lexeme (.punctuator mark), trivial, trivial, rfl, rfl⟩
  | string unquoted => exact ⟨.lexeme (.string _), unquoted, trivial, rfl, rfl⟩
  | whole some_digit digit =>
      have digits := fun c member => isDigit_iff.mpr (digit c member)
      exact ⟨.lexeme (.number ⟨text, []⟩), ⟨some_digit, digits, nofun⟩, trivial, rfl, rfl⟩
  | @fractional digits decimals some_digit digit some_decimal decimal =>
      obtain ⟨first, rest, rfl⟩ := List.exists_cons_of_ne_nil some_decimal
      have proper : (Numeral.mk digits (first :: rest)).IsProper :=
        ⟨some_digit, fun c member => isDigit_iff.mpr (digit c member),
          fun c member => isDigit_iff.mpr (decimal c member)⟩
      exact ⟨.lexeme (.number ⟨digits, first :: rest⟩), proper, trivial, rfl, rfl⟩
  | keyword word =>
      refine ⟨.lexeme (.word word.spelling.toList), word.isProper_word, trivial, rfl, ?_⟩
      rw [Segment.content?_word, String.ofList_toList, word.ofSpelling?_spelling]
      rfl
  | @identifier first rest start inside free =>
      have proper : (Lexeme.word (first :: rest)).IsProper :=
        ⟨first, rest, rfl, isLetter_iff.mpr start,
          fun c member => isWordCharacter_iff.mpr (inside c member)⟩
      refine ⟨.lexeme (.word (first :: rest)), proper, trivial, rfl, ?_⟩
      rw [Segment.content?_word, Keyword.ofSpelling?_eq_none_iff.mpr free]
      rfl

/-! ## The longest text

What is split off a text is at least as long as any text of a lexical class that begins there. -/

namespace Numeral

theorem length_whole_le (numeral : Numeral) : numeral.whole.length ≤ numeral.text.length := by
  obtain ⟨whole, fraction⟩ := numeral
  cases fraction with
  | nil => exact le_rfl
  | cons digit digits =>
      change whole.length ≤ (whole ++ '.' :: digit :: digits).length
      rw [List.length_append]
      exact Nat.le_add_right _ _

/-- The whole part of what is split off is the run of digits that comes first. -/
theorem whole_split (cs : List Char) : (split cs).1.whole = cs.takeWhile Char.isDigit := by
  unfold split
  split
  · split <;> rfl
  · rfl

/-- A numeral at the start of a text is no longer than the one split off. -/
theorem length_text_le_split {numeral : Numeral} (proper : numeral.IsProper) (rest : List Char) :
    numeral.text.length ≤ (split (numeral.text ++ rest)).1.text.length := by
  obtain ⟨whole, fraction⟩ := numeral
  cases fraction with
  | nil =>
      calc whole.length
          ≤ ((whole ++ rest).takeWhile Char.isDigit).length := by
            rw [List.takeWhile_append_of_pos proper.whole_digit, List.length_append]
            exact Nat.le_add_right _ _
        _ = (split (whole ++ rest)).1.whole.length := by rw [whole_split]
        _ ≤ (split (whole ++ rest)).1.text.length := length_whole_le _
  | cons digit digits =>
      obtain ⟨is_digit, digits_digit⟩ := List.forall_mem_cons.mp proper.fraction_digit
      unfold text
      rw [List.append_assoc]
      change _ ≤ (text (split (whole ++ '.' :: digit :: (digits ++ rest))).1).length
      rw [split_pointed proper.whole_digit is_digit, List.takeWhile_append_of_pos digits_digit]
      simp only [text, List.length_append, List.length_cons]
      omega

end Numeral

namespace Punctuator

/-- Where a mark comes first, one at least as long is split off. -/
theorem exists_split?_append {mark : Punctuator} {first : Char} {rest after : List Char}
    (text : mark.text ++ rest = first :: after) :
    ∃ longest later, split? first after = some (longest, later) ∧
      mark.text.length ≤ longest.text.length := by
  rcases mark.text_cases with ⟨c, single, written⟩ | ⟨c, short, single, double, written⟩
  · rw [written] at text
    cases text
    unfold split?
    rw [single, Option.map_some, written]
    exact ⟨_, _, rfl, List.length_pos_iff.mpr (text_ne_nil _)⟩
  · rw [written] at text
    cases text
    refine ⟨mark, rest, ?_, le_rfl⟩
    unfold split?
    rw [single, Option.map_some, double]
    rfl

end Punctuator

namespace Segment

/-- What begins with a mark is split after a mark that is no shorter, or after a comment. -/
theorem split_mark_append {mark : Punctuator} {first : Char} {rest after : List Char}
    (text : mark.text ++ rest = first :: after) :
    (split first after).1.IsLexical ∧ mark.text.length ≤ (split first after).1.text.length := by
  obtain ⟨longest, later, found, length⟩ := Punctuator.exists_split?_append text
  obtain ⟨short, single, -⟩ := Option.map_eq_some_iff.mp found
  obtain ⟨not_blank, not_newline, not_quote, not_word⟩ := Punctuator.class_of_single? single
  by_cases comment : first = '/' ∧ after.head? = some '/'
  · obtain ⟨rfl, slash⟩ := comment
    obtain ⟨body, rfl⟩ := List.head?_eq_some_iff.mp slash
    have two : mark.text.length ≤ 2 := by cases mark <;> simp [Punctuator.text]
    rw [split_slash_slash]
    refine ⟨trivial, ?_⟩
    simp only [Segment.text, List.length_cons]
    omega
  · have apart : first = '/' → after.head? ≠ some '/' :=
      fun slash twice => comment ⟨slash, twice⟩
    rw [split_of_other not_blank not_newline not_quote not_word apart, found]
    exact ⟨trivial, length⟩

/-- A text that begins with a proper segment of a lexical class is split after such a segment, and
after one that is no shorter. -/
theorem split_lexical_append {segment : Segment} {first : Char} {rest after : List Char}
    (proper : segment.IsProper) (lexical : segment.IsLexical)
    (text : segment.text ++ rest = first :: after) :
    (split first after).1.IsLexical ∧
      segment.text.length ≤ (split first after).1.text.length := by
  cases segment with
  | blank c =>
      cases text
      rw [split_of_isBlank proper]
      exact ⟨trivial, le_rfl⟩
  | newline =>
      cases text
      exact ⟨trivial, le_rfl⟩
  | comment body =>
      cases text
      change IsLexical (split '/' ('/' :: (body ++ rest))).1 ∧ _ ≤
        (split '/' ('/' :: (body ++ rest))).1.text.length
      rw [split_slash_slash, List.takeWhile_append_of_pos (bne_of_not_mem proper)]
      refine ⟨trivial, ?_⟩
      simp only [Segment.text, List.length_cons, List.length_append]
      omega
  | lexeme piece =>
      cases piece with
      | punctuator mark => exact split_mark_append text
      | word letters =>
          obtain ⟨head, tail, rfl, letter, inside⟩ := proper
          cases text
          change IsLexical (split first (tail ++ rest)).1 ∧ _ ≤
            (split first (tail ++ rest)).1.text.length
          rw [split_of_isLetter letter, List.takeWhile_append_of_pos inside]
          refine ⟨trivial, ?_⟩
          simp only [Segment.text, Lexeme.text, List.length_cons, List.length_append]
          omega
      | number numeral =>
          have digit : first.isDigit = true := proper.isDigit_first text
          change numeral.text ++ rest = first :: after at text
          rw [split_of_isDigit digit, ← text]
          exact ⟨trivial, Numeral.length_text_le_split proper rest⟩
      | string body =>
          cases text
          change IsLexical (split '"' (body ++ ['"'] ++ rest)).1 ∧ _ ≤
            (split '"' (body ++ ['"'] ++ rest)).1.text.length
          rw [split_quote, List.append_assoc, List.singleton_append, splitString_closed proper]
          exact ⟨trivial, le_rfl⟩
  | stray c => exact lexical.elim
  | openString body => exact lexical.elim

/-- No lexeme that comes first is longer than the segment split off. -/
theorem length_le_split {first : Char} {rest other : List Char} {content? : Option Token.Content}
    (begins : other <+: first :: rest) (lexical : Lexical other content?) :
    (split first rest).1.IsLexical ∧ other.length ≤ (split first rest).1.text.length := by
  obtain ⟨segment, proper, segment_lexical, rfl, -⟩ := lexical.exists_segment
  obtain ⟨after, text⟩ := begins
  exact split_lexical_append proper segment_lexical text

end Segment

/-! ## Munching -/

section Step
variable {segment : Segment} {after : List Char}

/-- A segment that is longest before a text is munched, and then the text is. -/
theorem munched_append (proper : segment.IsProper) (ends : segment.EndsBefore after)
    (longest : ∀ other content?, other <+: segment.text ++ after → Lexical other content? →
      segment.IsLexical ∧ other.length ≤ segment.text.length)
    (later : Munched after ((Segment.ofSource after).filterMap Segment.content? ++ [.eof])
      ((Segment.ofSource after).filterMap Segment.fault?)) :
    Munched (segment.text ++ after)
      ((segment :: Segment.ofSource after).filterMap Segment.content? ++ [.eof])
      ((segment :: Segment.ofSource after).filterMap Segment.fault?) := by
  have take (lexical : segment.IsLexical) :=
    Munched.longest rfl (proper.lexical lexical)
      (fun other content? begins other_lexical => (longest other content? begins other_lexical).2)
      later
  cases segment with
  | stray c =>
      exact .stray proper.not_quote
        (fun other content? begins lexical => (longest other content? begins lexical).1) later
  | openString body =>
      cases ends
      rw [Segment.ofSource, List.append_nil]
      rw [List.append_nil] at longest
      exact .openString fun other content? begins lexical =>
        (longest other content? begins lexical).1
  | blank c => exact take trivial
  | newline => exact take trivial
  | comment body => exact take trivial
  | lexeme piece => exact take trivial

end Step

/-- The cut of a source into segments is a way to munch it. -/
theorem munched_ofSource (cs : List Char) :
    Munched cs ((Segment.ofSource cs).filterMap Segment.content? ++ [.eof])
      ((Segment.ofSource cs).filterMap Segment.fault?) := by
  fun_induction Segment.ofSource cs with
  | case1 => exact .nil
  | case2 first rest ih =>
      have text := Segment.text_split_append first rest
      have step := munched_append (Segment.split_isProper first rest)
        (Segment.split_endsBefore first rest) (fun other content? begins lexical => by
          rw [text] at begins
          exact Segment.length_le_split begins lexical) ih
      rw [text] at step
      exact step

/-- A segment that is as long as any text of a lexical class comes first. -/
theorem Segment.ofSource_of_longest {segment : Segment} {rest : List Char}
    (proper : segment.IsProper) (lexical : segment.IsLexical)
    (longest : ∀ other content?, other <+: segment.text ++ rest → Lexical other content? →
      other.length ≤ segment.text.length) :
    ofSource (segment.text ++ rest) = segment :: ofSource rest := by
  obtain ⟨first, after, whole⟩ := proper.exists_cons rest
  obtain ⟨split_lexical, least⟩ := split_lexical_append proper lexical whole
  have split_proper := split_isProper first after
  have text := (text_split_append first after).trans whole.symm
  -- Each of the two is a text of a lexical class that begins here, and as long as any other.
  have most := longest _ _ ⟨_, text⟩ (split_proper.lexical split_lexical)
  obtain ⟨same, left⟩ := List.append_inj text (le_antisymm most least)
  rw [whole, ofSource, split_proper.eq_of_text proper same, left]

/-- Where no text of a lexical class begins, there is a string that is never closed or a stray
character. -/
theorem Segment.split_of_none {first : Char} {rest : List Char}
    (none : ∀ text content?, text <+: first :: rest → ¬ Lexical text content?) :
    split first rest = if first = '"' then (openString rest, []) else (stray first, rest) := by
  have proper := split_isProper first rest
  have ends := split_endsBefore first rest
  have text := text_split_append first rest
  have not_lexical : ¬ (split first rest).1.IsLexical :=
    fun lexical => none _ _ ⟨_, text⟩ (proper.lexical lexical)
  generalize split first rest = cut at *
  obtain ⟨segment, after⟩ := cut
  cases segment with
  | stray c =>
      cases text
      rw [if_neg proper.not_quote]
      rfl
  | openString body =>
      cases ends
      cases text
      change _ = if '"' = '"' then (openString (body ++ []), []) else _
      rw [if_pos rfl, List.append_nil]
  | _ => exact (not_lexical trivial).elim

/-- There is no other way to munch it. -/
theorem Munched.eq_ofSource {cs : List Char} {contents : List Token.Content} {faults : List Fault}
    (munched : Munched cs contents faults) :
    contents = (Segment.ofSource cs).filterMap Segment.content? ++ [.eof] ∧
      faults = (Segment.ofSource cs).filterMap Segment.fault? := by
  induction munched with
  | nil =>
      rw [Segment.ofSource]
      exact ⟨rfl, rfl⟩
  | @longest cs text rest content? contents faults cut lexical longest later ih =>
      obtain ⟨segment, proper, segment_lexical, rfl, rfl⟩ := lexical.exists_segment
      obtain ⟨rfl, rfl⟩ := ih
      subst cut
      rw [Segment.ofSource_of_longest proper segment_lexical longest, List.filterMap_cons,
        List.filterMap_cons]
      cases segment with
      | stray c => exact segment_lexical.elim
      | openString body => exact segment_lexical.elim
      | _ => exact ⟨rfl, rfl⟩
  | openString none =>
      rw [Segment.ofSource, Segment.split_of_none none, if_pos rfl, Segment.ofSource]
      exact ⟨rfl, rfl⟩
  | stray not_quote none later ih =>
      obtain ⟨rfl, rfl⟩ := ih
      rw [Segment.ofSource, Segment.split_of_none none, if_neg not_quote]
      exact ⟨rfl, rfl⟩

/-- A scan leaves the tokens and the faults that munching the source gives, lines aside. The list of
tokens ends with the only one that stands for the end of the source, and no diagnostic is in a
file. -/
theorem munched_iff_scanWith (source : String) :
    (∀ (contents : List Token.Content) (faults : List Fault),
      Munched source.toList contents faults ↔
        contents = (scanWith .collecting [] source).tokens.map Token.content ∧
          faults = (scanWith .collecting [] source).sink.map Diagnostic.fault) ∧
      (∀ diagnostic ∈ (scanWith .collecting [] source).sink, diagnostic.file = none) ∧
      ∃ tokens line, (scanWith .collecting [] source).tokens = tokens ++ [.eof line] ∧
        ∀ token ∈ tokens, token.kind ≠ .eof := by
  refine ⟨fun contents faults => ?_, ?_, _, _, tokens_scanWith_eq_placed .collecting [] source, ?_⟩
  · rw [map_content_scanWith, map_fault_scanWith]
    constructor
    · intro munched
      exact munched.eq_ofSource
    · intro same
      obtain ⟨rfl, rfl⟩ := same
      exact munched_ofSource source.toList
  · intro diagnostic member
    rw [sink_scanWith_collecting] at member
    obtain ⟨event, -, found⟩ := List.mem_filterMap.mp member
    exact Event.file_of_diagnostic? found
  · intro token member
    obtain ⟨piece, -, made⟩ := Placed.isLexical_of_token? member
    rw [made]
    exact piece.kind_ne_eof

end LoxLexer
