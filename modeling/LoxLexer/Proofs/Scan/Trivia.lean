import LoxLexer.Proofs.Scan.Placed

/-! # Blanks and comments

Blanks and comments make no tokens: they only keep apart what stands around them, and for that one
space does as well as many, and the newline behind a comment as well as the comment. So a source is
scanned the same without its comments and with one space for each run of blanks
(`scanWith_squeezed`). What is a comment and what is outside strings is said by reading the source
character by character (`squeeze`), not by cutting it. -/

namespace LoxLexer

/-- Where a character stands: in code, right behind a blank or not, in a comment, or in a string. -/
inductive Surroundings where
  | code (behindBlank : Bool)
  | comment
  | string

/-- The text without its comments, and with one space for each run of blanks in code. -/
def squeeze : Surroundings → List Char → List Char
  | _, [] => []
  | .code behindBlank, c :: cs =>
    if isBlank c then (if behindBlank then [] else [' ']) ++ squeeze (.code true) cs
    else if c = '"' then c :: squeeze .string cs
    else if c = '/' ∧ cs.head? = some '/' then squeeze .comment cs
    else c :: squeeze (.code false) cs
  | .comment, c :: cs =>
    if c = '\n' then c :: squeeze (.code false) cs else squeeze .comment cs
  | .string, c :: cs =>
    c :: squeeze (if c = '"' then .code false else .string) cs

/-- The source without its comments, and with one space for each run of blanks. -/
def squeezed (source : String) : String :=
  String.ofList (squeeze (.code false) source.toList)

namespace Segment

/-- What is kept of a segment that stands behind a blank or not: no comment, and a space for the
first of several blanks. -/
def squeezed (behindBlank : Bool) : Segment → List Segment
  | blank _ => if behindBlank then [] else [blank ' ']
  | comment _ => []
  | segment => [segment]

/-- Whether a blank is the last thing before what follows the segment, comments aside. -/
def leavesBlank (behindBlank : Bool) : Segment → Bool
  | blank _ => true
  | comment _ => behindBlank
  | _ => false

/-- What is kept of a list of segments. -/
def squeeze : Bool → List Segment → List Segment
  | _, [] => []
  | behindBlank, segment :: rest =>
    segment.squeezed behindBlank ++ squeeze (segment.leavesBlank behindBlank) rest

end Segment

/-! ## Characters -/

section Characters
variable {c : Char} {cs body rest : List Char} {behindBlank : Bool}

/-- In code, a character that begins no blank, string or comment is kept. -/
theorem squeeze_cons (not_blank : isBlank c = false) (not_quote : c ≠ '"')
    (apart : c = '/' → cs.head? ≠ some '/') :
    squeeze (.code behindBlank) (c :: cs) = c :: squeeze (.code false) cs := by
  have no_comment : ¬ (c = '/' ∧ cs.head? = some '/') := fun both => apart both.1 both.2
  simp only [squeeze, not_blank, Bool.false_eq_true, not_quote, no_comment, ↓reduceIte]

theorem squeeze_word (word : ∀ c ∈ body, isWordCharacter c = true) (some_word : body ≠ []) :
    squeeze (.code behindBlank) (body ++ rest) = body ++ squeeze (.code false) rest := by
  induction body generalizing behindBlank with
  | nil => exact (some_word rfl).elim
  | cons c cs ih =>
      obtain ⟨here, others⟩ := List.forall_mem_cons.mp word
      have first : squeeze (.code behindBlank) (c :: (cs ++ rest)) =
          c :: squeeze (.code false) (cs ++ rest) :=
        squeeze_cons (isBlank_eq_false_of_isWordCharacter here) (ne_of_isWordCharacter here rfl)
          fun slash => (ne_of_isWordCharacter here rfl slash).elim
      rw [List.cons_append, first, List.cons_append]
      by_cases more : cs = []
      · subst more
        rfl
      · rw [ih others more]

/-- Nothing is kept of a comment before the end of its line. -/
theorem squeeze_comment (one_line : '\n' ∉ body) :
    squeeze .comment (body ++ rest) = squeeze .comment rest := by
  induction body with
  | nil => rfl
  | cons c cs ih =>
      obtain ⟨here, others⟩ := not_or.mp (List.mem_cons.not.mp one_line)
      simp only [List.cons_append, squeeze, Ne.symm here, ↓reduceIte]
      exact ih others

/-- Where a comment has ended, it makes no difference that there was one. -/
theorem squeeze_comment_of_ended (ended : ∀ c ∈ rest.head?, c = '\n') :
    squeeze .comment rest = squeeze (.code behindBlank) rest := by
  cases rest with
  | nil => rfl
  | cons c cs =>
      obtain rfl : c = '\n' := ended c rfl
      rfl

/-- All is kept of a string before a quotation mark. -/
theorem squeeze_string (unquoted : '"' ∉ body) :
    squeeze .string (body ++ rest) = body ++ squeeze .string rest := by
  induction body with
  | nil => rfl
  | cons c cs ih =>
      obtain ⟨here, others⟩ := not_or.mp (List.mem_cons.not.mp unquoted)
      simp only [List.cons_append, squeeze, Ne.symm here, ↓reduceIte]
      rw [ih others]

/-- What is kept in a comment begins with the newline behind it. -/
theorem eq_newline_of_mem_head?_squeeze_comment : ∀ c ∈ (squeeze .comment cs).head?, c = '\n' := by
  induction cs with
  | nil => nofun
  | cons d cs ih =>
      intro c first
      by_cases newline : d = '\n'
      · subst newline
        exact (Option.some.inj first).symm
      · simp only [squeeze, newline, ↓reduceIte] at first
        exact ih c first

/-- What comes first is a space, a newline, or what came first before. -/
theorem mem_head?_squeeze :
    ∀ c ∈ (squeeze (.code false) cs).head?, IsSpace c ∨ c ∈ cs.head? := by
  intro c first
  cases cs with
  | nil => cases first
  | cons d cs =>
      by_cases is_blank : isBlank d = true
      · simp only [squeeze, is_blank, ↓reduceIte] at first
        exact .inl (.inl (Option.some.inj first).symm)
      by_cases comment : d = '/' ∧ cs.head? = some '/'
      · obtain ⟨rfl, slash⟩ := comment
        simp only [squeeze, is_blank, slash, true_and, ↓reduceIte] at first
        exact .inl (.inr (eq_newline_of_mem_head?_squeeze_comment c first))
      right
      by_cases quote : d = '"'
      · subst quote
        exact first
      · simp only [squeeze, is_blank, quote, comment, ↓reduceIte] at first
        exact first

/-- A squeezed text begins as before, or with what goes on with no lexeme. -/
theorem beginsAs_squeeze : BeginsAs (squeeze (.code false) cs) cs :=
  fun c first => (mem_head?_squeeze c first).imp_left IsSpace.isApart

/-- A point that comes first was there before. -/
theorem exists_of_squeeze_eq_point {tail : List Char}
    (point : squeeze (.code false) cs = '.' :: tail) :
    ∃ after, cs = '.' :: after ∧ tail = squeeze (.code false) after := by
  have first : '.' ∈ (squeeze (.code false) cs).head? := by rw [point]; rfl
  rcases mem_head?_squeeze '.' first with space | before
  · have other : '.' ≠ '.' := space.ne (by decide) (by decide)
    exact (other rfl).elim
  · obtain ⟨after, rfl⟩ := List.head?_eq_some_iff.mp before
    exact ⟨after, rfl, (List.tail_eq_of_cons_eq point).symm⟩

end Characters

/-! ## Segments -/

namespace Segment

section Ends
variable {rest : List Char}

/-- What ends before a text still does when the text is squeezed. -/
theorem EndsBefore.squeeze {segment : Segment} (ends : segment.EndsBefore rest)
    (kept : ∀ body, segment ≠ comment body) :
    segment.EndsBefore (LoxLexer.squeeze (.code false) rest) := by
  cases segment with
  | comment body => exact (kept body rfl).elim
  | openString body =>
      cases ends
      rfl
  | lexeme piece =>
      apply ends.of_beginsAs beginsAs_squeeze
      intro tail point
      obtain ⟨after, whole, rfl⟩ := exists_of_squeeze_eq_point point
      exact ⟨after, whole, beginsAs_squeeze⟩
  | _ => trivial

private theorem squeeze_lexeme_append {piece : Lexeme} (behindBlank : Bool)
    (proper : piece.IsProper) (ends : piece.EndsBefore rest) :
    LoxLexer.squeeze (.code behindBlank) (piece.text ++ rest) =
      piece.text ++ LoxLexer.squeeze (.code false) rest := by
  cases piece with
  | punctuator mark =>
      cases mark with
      | slash =>
          exact squeeze_cons rfl (by decide) fun _ => ends.slash rfl
      | _ => rfl
  | word letters =>
      obtain ⟨first, others, rfl, letter, inside⟩ := proper
      apply squeeze_word _ (List.cons_ne_nil _ _)
      exact List.forall_mem_cons.mpr ⟨isWordCharacter_of_isLetter letter, inside⟩
  | number numeral =>
      obtain ⟨whole, fraction⟩ := numeral
      have whole_word : ∀ c ∈ whole, isWordCharacter c = true :=
        fun c member => isWordCharacter_of_isDigit (proper.whole_digit c member)
      cases fraction with
      | nil => exact squeeze_word whole_word proper.whole_ne_nil
      | cons digit digits =>
          have fraction_word : ∀ c ∈ digit :: digits, isWordCharacter c = true :=
            fun c member => isWordCharacter_of_isDigit (proper.fraction_digit c member)
          change LoxLexer.squeeze _ (whole ++ '.' :: (digit :: digits) ++ rest) =
            whole ++ '.' :: (digit :: digits) ++ _
          rw [List.append_assoc, squeeze_word whole_word proper.whole_ne_nil, List.append_assoc,
            List.cons_append, squeeze_cons rfl (by decide) (by simp),
            squeeze_word fraction_word (List.cons_ne_nil _ _)]
          rfl
  | string body =>
      change '"' :: LoxLexer.squeeze .string (body ++ ['"'] ++ rest) =
        '"' :: (body ++ ['"'] ++ _)
      rw [List.append_assoc, squeeze_string proper, List.append_assoc]
      rfl

/-- Over a segment, what is kept character by character is what is kept of the segment. -/
theorem squeeze_text_append {segment : Segment} (behindBlank : Bool) (proper : segment.IsProper)
    (ends : segment.EndsBefore rest) :
    LoxLexer.squeeze (.code behindBlank) (segment.text ++ rest) =
      (segment.squeezed behindBlank).flatMap text ++
        LoxLexer.squeeze (.code (segment.leavesBlank behindBlank)) rest := by
  cases segment with
  | blank c =>
      change LoxLexer.squeeze _ (c :: rest) = _
      have is_blank : isBlank c = true := proper
      cases behindBlank <;> simp [LoxLexer.squeeze, is_blank, squeezed, leavesBlank, text]
  | newline => rfl
  | comment body =>
      have one_line : '\n' ∉ '/' :: body := List.not_mem_cons_of_ne_of_not_mem (by simp) proper
      exact (squeeze_comment one_line).trans (squeeze_comment_of_ended ends)
  | lexeme piece =>
      change _ = [lexeme piece].flatMap text ++ _
      rw [List.flatMap_singleton]
      exact squeeze_lexeme_append behindBlank proper ends
  | stray c =>
      refine squeeze_cons proper.not_blank proper.not_quote fun slash => ?_
      subst slash
      cases proper.not_mark
  | openString body =>
      cases ends
      change '"' :: LoxLexer.squeeze .string (body ++ []) = '"' :: body ++ [] ++ []
      rw [squeeze_string proper]
      simp [LoxLexer.squeeze]

end Ends

variable {segments : List Segment}

/-- The squeezed text of a cut is the text of its squeezed segments. -/
theorem squeeze_flatMap_text (behindBlank : Bool) (cut : IsCut segments) :
    LoxLexer.squeeze (.code behindBlank) (segments.flatMap text) =
      (squeeze behindBlank segments).flatMap text := by
  induction segments generalizing behindBlank with
  | nil => rfl
  | cons segment rest ih =>
      obtain ⟨proper, ends, cut⟩ := cut
      rw [List.flatMap_cons, squeeze_text_append behindBlank proper ends, squeeze,
        List.flatMap_append, ih _ cut]

/-- The squeezed segments of a cut are a cut. -/
theorem IsCut.squeeze (behindBlank : Bool) (cut : IsCut segments) :
    IsCut (Segment.squeeze behindBlank segments) := by
  induction segments generalizing behindBlank with
  | nil => trivial
  | cons segment rest ih =>
      obtain ⟨proper, ends, cut⟩ := cut
      have kept (not_comment : ∀ body, segment ≠ .comment body) :
          IsCut (segment :: Segment.squeeze false rest) := by
        refine ⟨proper, ?_, ih false cut⟩
        rw [← squeeze_flatMap_text false cut]
        exact ends.squeeze not_comment
      cases segment with
      | blank c =>
          cases behindBlank with
          | true => exact ih true cut
          | false => exact ⟨rfl, trivial, ih true cut⟩
      | comment body => exact ih behindBlank cut
      | _ => exact kept nofun

/-- Nothing more is squeezed out a second time. -/
theorem squeeze_squeeze (behindBlank : Bool) (segments : List Segment) :
    squeeze behindBlank (squeeze behindBlank segments) = squeeze behindBlank segments := by
  induction segments generalizing behindBlank with
  | nil => rfl
  | cons segment rest ih =>
      cases segment with
      | blank c =>
          cases behindBlank with
          | true => exact ih true
          | false => exact congrArg (Segment.blank ' ' :: ·) (ih true)
      | comment body => exact ih behindBlank
      | _ => exact congrArg (_ :: ·) (ih false)

/-- The segments of a squeezed source are the squeezed ones. -/
theorem ofSource_squeezed (source : String) :
    ofSource (LoxLexer.squeezed source).toList = squeeze false (ofSource source.toList) := by
  have cut := isCut_ofSource source.toList
  rw [ofSource_eq_iff, ← squeeze_flatMap_text false cut, flatMap_text_ofSource,
    LoxLexer.squeezed, String.toList_ofList]
  exact ⟨rfl, cut.squeeze false⟩

end Segment

/-! ## Scans -/

namespace Event

/-- What is not kept is not met, and no line is lost with it. -/
theorem ofSegments_squeeze (line : Nat) (behindBlank : Bool) {segments : List Segment}
    (proper : ∀ segment ∈ segments, segment.IsProper) :
    ofSegments line (Segment.squeeze behindBlank segments) = ofSegments line segments := by
  induction segments generalizing line behindBlank with
  | nil => rfl
  | cons segment rest ih =>
      obtain ⟨here, others⟩ := List.forall_mem_cons.mp proper
      cases segment with
      | blank c =>
          have no_newline : Segment.newlines (.blank c) = 0 :=
            List.count_eq_zero.mpr (here.newline_notMem_text (by simp) (by simp) (by simp))
          rw [ofSegments, no_newline]
          cases behindBlank <;> exact ih line true others
      | comment body =>
          have no_newline : Segment.newlines (.comment body) = 0 :=
            List.count_eq_zero.mpr (here.newline_notMem_text (by simp) (by simp) (by simp))
          rw [ofSegments, no_newline]
          exact ih line behindBlank others
      | _ => exact congrArg (_ ++ ·) (ih _ false others)

/-- A scan meets the same in a squeezed source. -/
theorem ofSource_squeezed (source : String) : ofSource (squeezed source) = ofSource source := by
  unfold ofSource
  rw [Segment.ofSource_squeezed]
  exact ofSegments_squeeze 1 false (Segment.isCut_ofSource _).isProper

end Event

variable {σ : Type}

/-- A source without its comments, and with one space for each run of blanks outside strings, is
scanned to the same tokens and reports the same to any sink. There is nothing more to take away from
it. -/
theorem scanWith_squeezed (sink : Sink σ) (state : σ) (source : String) :
    (scanWith sink state (squeezed source)).tokens = (scanWith sink state source).tokens ∧
      (scanWith sink state (squeezed source)).sink = (scanWith sink state source).sink ∧
      squeezed (squeezed source) = squeezed source := by
  unfold scanWith
  rw [Event.ofSource_squeezed]
  refine ⟨rfl, rfl, ?_⟩
  have once := Segment.ofSource_squeezed source
  have twice := Segment.ofSource_squeezed (squeezed source)
  rw [once, Segment.squeeze_squeeze, ← once] at twice
  rw [← String.toList_inj, ← Segment.flatMap_text_ofSource (squeezed source).toList, ← twice,
    Segment.flatMap_text_ofSource]

end LoxLexer
