import LoxLexer.Proofs.Scan.Placed

/-! # The mode automaton

What is wrong with a source can be found without cutting it: an automaton that knows only whether it
is in code, after a slash, in a comment or in a string refuses the stray characters, and ends in a
string if one is never closed. Over each segment the automaton refuses what is wrong with that
segment, and then goes on as it does in code (`Mode.faults_text_append`). -/

namespace LoxLexer

/-- The characters that the marks of Lox are made of. -/
def markCharacters : List Char :=
  ['(', ')', '\x7b', '\x7d', ',', '.', '-', '+', ';', '*', '!', '=', '<', '>', '/']

/-- A character that has a use outside strings and comments. -/
def isLegal (c : Char) : Bool :=
  c == ' ' || c == '\t' || c == '\n' || c == '"' || decide (IsWordPart c) ||
    markCharacters.contains c

/-- The legal characters are those with which the scanner does something. -/
theorem isLegal_iff {c : Char} :
    isLegal c = true ↔
      isBlank c = true ∨ c = '\n' ∨ c = '"' ∨ isWordCharacter c = true ∨ c ∈ markCharacters := by
  simp only [isLegal, Bool.or_eq_true, beq_iff_eq, decide_eq_true_iff, List.contains_iff_mem,
    isBlank_iff, isWordCharacter_iff, or_assoc]

theorem IsStray.isLegal_eq_false {c : Char} (stray : IsStray c) : isLegal c = false := by
  rw [Bool.eq_false_iff, ne_eq, isLegal_iff]
  rintro (blank | newline | quote | word | mark)
  · exact Bool.false_ne_true (stray.not_blank.symm.trans blank)
  · exact stray.not_newline newline
  · exact stray.not_quote quote
  · have not_word : isWordCharacter c = false :=
      Bool.or_eq_false_iff.mpr ⟨stray.not_letter, stray.not_digit⟩
    exact Bool.false_ne_true (not_word.symm.trans word)
  · have marks : markCharacters.all (fun c => Punctuator.single? c != none) = true := rfl
    exact bne_iff_ne.mp (List.all_eq_true.mp marks c mark) stray.not_mark

/-- Where the automaton is. -/
inductive Mode where
  | code
  | slash
  | comment
  | string
  deriving DecidableEq, Repr

namespace Mode

/-- After a slash, everything but a second slash is read as in code. -/
def readsCode : Mode → Char → Bool
  | code, _ => true
  | slash, c => c != '/'
  | comment, _ | string, _ => false

/-- The character is read as in code without being legal there. -/
def refuses (mode : Mode) (c : Char) : Bool :=
  mode.readsCode c && !isLegal c

/-- The mode after a character that is read as in code. -/
def ofCode (c : Char) : Mode :=
  if c = '"' then string else if c = '/' then slash else code

/-- The mode after a character. -/
def next : Mode → Char → Mode
  | code, c => ofCode c
  | slash, c => if c = '/' then comment else ofCode c
  | comment, c => if c = '\n' then code else comment
  | string, c => if c = '"' then code else string

/-- The mode after a text. -/
def after (mode : Mode) (cs : List Char) : Mode :=
  cs.foldl next mode

/-- The characters of a text that are refused. -/
def refused : Mode → List Char → List Char
  | _, [] => []
  | mode, c :: cs => (if mode.refuses c then [c] else []) ++ refused (mode.next c) cs

/-- A fault for each refused character, and one more if the text ends in a string. -/
def faults (mode : Mode) (cs : List Char) : List Fault :=
  (mode.refused cs).map .unexpectedCharacter ++
    if mode.after cs = string then [.unterminatedString] else []

theorem after_append (mode : Mode) (as bs : List Char) :
    mode.after (as ++ bs) = (mode.after as).after bs :=
  List.foldl_append

/-- What is refused of two texts is refused of each in its turn. -/
theorem refused_append (mode : Mode) (as bs : List Char) :
    mode.refused (as ++ bs) = mode.refused as ++ (mode.after as).refused bs := by
  induction as generalizing mode with
  | nil => rfl
  | cons a as ih =>
      change _ ++ refused (mode.next a) (as ++ bs) = (_ ++ refused (mode.next a) as) ++ _
      rw [ih, List.append_assoc]
      rfl

/-- The faults of two texts are what is refused of the first and the faults of the second. -/
theorem faults_append (mode : Mode) (as bs : List Char) :
    mode.faults (as ++ bs) =
      (mode.refused as).map .unexpectedCharacter ++ (mode.after as).faults bs := by
  unfold faults
  rw [refused_append, after_append, List.map_append, List.append_assoc]

/-! ## Modes that a text does not leave -/

/-- If no character leads out of the mode or is refused, neither does the text. -/
theorem run_of_stays {mode : Mode} {cs : List Char}
    (stays : ∀ c ∈ cs, mode.next c = mode ∧ mode.refuses c = false) :
    mode.after cs = mode ∧ mode.refused cs = [] := by
  induction cs with
  | nil => exact ⟨rfl, rfl⟩
  | cons c cs ih =>
      obtain ⟨⟨stay, accepted⟩, rest⟩ := List.forall_mem_cons.mp stays
      unfold after refused
      rw [List.foldl_cons, stay, accepted]
      exact ih rest

/-- A comment goes on to the end of its line. -/
theorem run_comment {body : List Char} (one_line : '\n' ∉ body) :
    after comment body = comment ∧ refused comment body = [] := by
  apply run_of_stays
  intro c member
  have other : c ≠ '\n' := ne_of_mem_of_not_mem member one_line
  exact ⟨if_neg other, rfl⟩

/-- A string goes on to a quotation mark. -/
theorem run_string {body : List Char} (unquoted : '"' ∉ body) :
    after string body = string ∧ refused string body = [] := by
  apply run_of_stays
  intro c member
  have other : c ≠ '"' := ne_of_mem_of_not_mem member unquoted
  exact ⟨if_neg other, rfl⟩

/-- The character is legal in code and does not lead out of it. -/
structure IsPlain (c : Char) : Prop where
  legal : isLegal c = true
  not_quote : c ≠ '"'
  not_slash : c ≠ '/'

/-- Plain characters stay in code. -/
theorem run_plain {cs : List Char} (plain : ∀ c ∈ cs, IsPlain c) :
    after code cs = code ∧ refused code cs = [] := by
  apply run_of_stays
  intro c member
  obtain ⟨legal, not_quote, not_slash⟩ := plain c member
  refine ⟨(if_neg not_quote).trans (if_neg not_slash), ?_⟩
  rw [refuses, legal]
  rfl

/-- The characters of words are plain. -/
theorem isPlain_of_isWordCharacter {c : Char} (word : isWordCharacter c = true) : IsPlain c where
  legal := isLegal_iff.mpr (.inr (.inr (.inr (.inl word))))
  not_quote := ne_of_isWordCharacter word rfl
  not_slash := ne_of_isWordCharacter word rfl

theorem isPlain_of_numeral {numeral : Numeral} (proper : numeral.IsProper) :
    ∀ c ∈ numeral.text, IsPlain c := by
  intro c member
  rcases proper.isDigit_or_point c member with digit | rfl
  · exact isPlain_of_isWordCharacter (isWordCharacter_of_isDigit digit)
  · exact ⟨rfl, by simp, by simp⟩

/-! ## Modes that go on as code does -/

/-- Behind a slash, all but a second one is read as in code. -/
theorem step_slash {c : Char} {cs : List Char} (apart : (c :: cs).head? ≠ some '/') :
    next slash c = next code c ∧ readsCode slash c = readsCode code c := by
  have other : c ≠ '/' := by
    intro same
    exact apart (congrArg some same)
  exact ⟨if_neg other, bne_iff_ne.mpr other⟩

/-- Behind a slash, the faults are those of code unless a second one comes first. -/
theorem faults_slash {rest : List Char} (apart : rest.head? ≠ some '/') :
    faults slash rest = faults code rest := by
  cases rest with
  | nil => rfl
  | cons c cs =>
      obtain ⟨step, reads⟩ := step_slash apart
      unfold faults refused after refuses
      rw [List.foldl_cons, List.foldl_cons, step, reads]

/-- At the end of its line, the faults behind a comment are those of code. -/
theorem faults_comment {rest : List Char} (ended : ∀ c ∈ rest.head?, c = '\n') :
    faults comment rest = faults code rest := by
  cases rest with
  | nil => rfl
  | cons c cs =>
      obtain rfl : c = '\n' := ended c rfl
      rfl

/-! ## Segments -/

/-- The mode to which a segment leads from code. -/
def behind : Segment → Mode
  | .lexeme (.punctuator .slash) => slash
  | .comment _ => comment
  | .openString _ => string
  | _ => code

/-- The characters of a segment that are refused in code. -/
def strays : Segment → List Char
  | .stray c => [c]
  | _ => []

/-- A lexeme other than a slash leads back to code. -/
theorem behind_lexeme {piece : Lexeme} (other : piece ≠ .punctuator .slash) :
    behind (.lexeme piece) = code := by
  cases piece with
  | punctuator mark =>
      cases mark with
      | slash => exact (other rfl).elim
      | _ => rfl
  | _ => rfl

/-- A lexeme is refused nowhere, and leads to the mode behind it. -/
theorem run_lexeme {piece : Lexeme} (proper : piece.IsProper) :
    after code piece.text = behind (.lexeme piece) ∧ refused code piece.text = [] := by
  cases piece with
  | punctuator mark => cases mark <;> exact ⟨rfl, rfl⟩
  | word letters =>
      obtain ⟨first, others, rfl, letter, inside⟩ := proper
      apply run_plain
      intro c member
      rcases List.mem_cons.mp member with rfl | later
      · exact isPlain_of_isWordCharacter (isWordCharacter_of_isLetter letter)
      · exact isPlain_of_isWordCharacter (inside c later)
  | number numeral => exact run_plain (isPlain_of_numeral proper)
  | string body =>
      obtain ⟨stays, accepted⟩ := run_string proper
      change after string (body ++ ['"']) = code ∧ refused string (body ++ ['"']) = []
      rw [after_append, refused_append, stays, accepted]
      exact ⟨rfl, rfl⟩

/-- Only a stray character is refused, and a segment leads to the mode behind it. -/
theorem run_text {segment : Segment} (proper : segment.IsProper) :
    after code segment.text = behind segment ∧ refused code segment.text = strays segment := by
  cases segment with
  | blank c =>
      rcases isBlank_iff.mp proper with rfl | rfl <;> exact ⟨rfl, rfl⟩
  | newline => exact ⟨rfl, rfl⟩
  | comment body => exact run_comment proper
  | lexeme piece => exact run_lexeme proper
  | stray c =>
      have not_slash : c ≠ '/' := by
        intro slash
        subst slash
        cases proper.not_mark
      have stays : next code c = code := (if_neg proper.not_quote).trans (if_neg not_slash)
      have illegal : refuses code c = true := by rw [refuses, proper.isLegal_eq_false]; rfl
      refine ⟨stays, ?_⟩
      rw [Segment.text, refused, illegal]
      rfl
  | openString body => exact run_string proper

/-- Over a segment the automaton refuses what is wrong with it, and then goes on as in code. -/
theorem faults_text_append {segment : Segment} {rest : List Char} (proper : segment.IsProper)
    (ends : segment.EndsBefore rest) :
    faults code (segment.text ++ rest) = segment.fault?.toList ++ faults code rest := by
  obtain ⟨stops, refused⟩ := run_text proper
  rw [faults_append, stops, refused]
  cases segment with
  | comment body => exact faults_comment ends
  | lexeme piece =>
      by_cases slash : piece = .punctuator .slash
      · subst slash
        exact faults_slash (ends.slash rfl)
      · rw [behind_lexeme slash]
        rfl
  | openString body =>
      cases ends
      rfl
  | _ => rfl

/-- Over a source that is cut into segments, the automaton refuses what is wrong with each. -/
theorem faults_flatMap_text {segments : List Segment} (cut : Segment.IsCut segments) :
    faults code (segments.flatMap Segment.text) = segments.filterMap Segment.fault? := by
  induction segments with
  | nil => rfl
  | cons segment rest ih =>
      obtain ⟨proper, ends, later⟩ := cut
      rw [List.flatMap_cons, faults_text_append proper ends, ih later, List.filterMap_cons]
      cases segment.fault? <;> rfl

theorem faults_eq_nil_iff {mode : Mode} {cs : List Char} :
    mode.faults cs = [] ↔ mode.refused cs = [] ∧ mode.after cs ≠ string := by
  unfold faults
  rw [List.append_eq_nil_iff, List.map_eq_nil_iff, ite_eq_right_iff]
  apply and_congr_right
  intro _
  constructor
  · intro closed ended
    exact List.cons_ne_nil _ _ (closed ended)
  · intro closed ended
    exact (closed ended).elim

/-- A string that is never closed is the last fault. -/
theorem open_last {mode : Mode} {cs : List Char} {before after : List Fault}
    (whole : mode.faults cs = before ++ .unterminatedString :: after) : after = [] := by
  unfold faults at whole
  generalize mode.refused cs = strays at whole
  induction strays generalizing before with
  | nil =>
      rw [List.map_nil, List.nil_append] at whole
      have length := congrArg List.length whole
      rw [List.length_append, List.length_cons] at length
      split at length
      · exact List.length_eq_zero_iff.mp (by simp only [List.length_singleton] at length; omega)
      · simp only [List.length_nil] at length
        omega
  | cons stray strays ih =>
      cases before with
      | nil => cases List.head_eq_of_cons_eq whole
      | cons fault before => exact ih (List.tail_eq_of_cons_eq whole)

end Mode

variable {σ : Type}

/-- The faults that a scan reports are those of the automaton: its refused characters in order, and
a string that is never closed at most once and last. A source scans well, to the tokens that any
sink would see, if and only if the automaton refuses nothing and does not end in a string. -/
theorem faults_scanWith_eq_automaton (sink : Sink σ) (state : σ) (source : String) :
    (scanWith .collecting [] source).sink.map Diagnostic.fault =
        (Mode.code.refused source.toList).map .unexpectedCharacter ++
          (if Mode.code.after source.toList = .string then [.unterminatedString] else []) ∧
      (∀ before after, (scanWith .collecting [] source).sink.map Diagnostic.fault =
        before ++ .unterminatedString :: after → after = [] ∧ .unterminatedString ∉ before) ∧
      (scan source).1 =
        if Mode.code.refused source.toList = [] ∧ Mode.code.after source.toList ≠ .string then
          .ok (scanWith sink state source).tokens
        else .error (scanWith .collecting [] source).sink := by
  have reported : (scanWith .collecting [] source).sink.map Diagnostic.fault =
      Mode.code.faults source.toList := by
    have cut := Segment.isCut_ofSource source.toList
    rw [map_fault_scanWith, ← Mode.faults_flatMap_text cut, Segment.flatMap_text_ofSource]
  have clean_iff : (scanWith .collecting [] source).sink = [] ↔
      Mode.code.refused source.toList = [] ∧ Mode.code.after source.toList ≠ .string := by
    rw [← Mode.faults_eq_nil_iff, ← reported, List.map_eq_nil_iff]
  refine ⟨reported, ?_, ?_⟩
  · intro before after whole
    rw [reported] at whole
    refine ⟨Mode.open_last whole, fun earlier => ?_⟩
    obtain ⟨first, between, rfl⟩ := List.append_of_mem earlier
    rw [List.append_assoc, List.cons_append] at whole
    exact absurd (Mode.open_last whole)
      (List.append_ne_nil_of_right_ne_nil _ (List.cons_ne_nil _ _))
  · by_cases clean : (scanWith .collecting [] source).sink = []
    · rw [if_pos (clean_iff.mp clean)]
      exact scan_of_clean sink state clean
    · rw [if_neg fun accepted => clean (clean_iff.mpr accepted)]
      exact scan_of_faulty clean

end LoxLexer
