import LoxLexer.Proofs.Scan.Spots

/-! # Line endings

A carriage return in front of each newline takes no part in what stands before it. In a string or a
comment it is one more character; in code it is a stray character on the line that the newline ends.
So the tokens stay what they are but for the texts of strings, and to what is reported only the
carriage returns in code are added, each where its newline is (`scanWith_returned`). -/

namespace LoxLexer

/-- The text with a carriage return in front of each newline. -/
def withReturns (cs : List Char) : List Char :=
  cs.flatMap fun c => if c = '\n' then ['\r', '\n'] else [c]

def returned (text : String) : String :=
  String.ofList (withReturns text.toList)

/-- A string whose newlines have a carriage return in front; a number stays what it is. -/
def Literal.returned : Literal → Literal
  | string value => string (LoxLexer.returned value)
  | number value => number value

/-- The token with a carriage return in front of each newline, if it is a string. -/
def Token.returned (token : Token) : Token :=
  if token.kind = .string then
    { token with
      lexeme := LoxLexer.returned token.lexeme
      literal := token.literal.map Literal.returned }
  else token

/-- What is reported at a spot with a carriage return in front of each newline: the carriage return,
if the spot is a newline, and else what is reported there without. -/
def Spot.returned (spot : Spot) : Diagnostic :=
  ⟨spot.fault?.getD (.unexpectedCharacter '\r'), some spot.line, none⟩

/-! ## Characters -/

section Characters
variable {c : Char} {cs : List Char}

theorem withReturns_append (as bs : List Char) :
    withReturns (as ++ bs) = withReturns as ++ withReturns bs :=
  List.flatMap_append

/-- A character other than a newline gets no carriage return. -/
theorem withReturns_cons_of_ne (other : c ≠ '\n') (cs : List Char) :
    withReturns (c :: cs) = c :: withReturns cs := by
  simp [withReturns, other]

/-- A text on one line stays what it is. -/
theorem withReturns_of_notMem (one_line : '\n' ∉ cs) : withReturns cs = cs := by
  induction cs with
  | nil => rfl
  | cons c cs ih =>
      obtain ⟨here, others⟩ := not_or.mp (List.mem_cons.not.mp one_line)
      rw [withReturns_cons_of_ne (Ne.symm here), ih others]

theorem withReturns_comment {body : List Char} (one_line : '\n' ∉ body) :
    withReturns ('/' :: '/' :: body) = '/' :: '/' :: body :=
  withReturns_of_notMem (by simpa using one_line)

/-- Carriage returns add no newlines. -/
theorem count_newline_withReturns (cs : List Char) :
    (withReturns cs).count '\n' = cs.count '\n' := by
  induction cs with
  | nil => rfl
  | cons c cs ih =>
      by_cases newline : c = '\n'
      · subst newline
        change ('\r' :: '\n' :: withReturns cs).count '\n' = _
        simp [ih]
      · rw [withReturns_cons_of_ne newline, List.count_cons_of_ne newline,
          List.count_cons_of_ne newline, ih]

theorem quote_notMem_withReturns (unquoted : '"' ∉ cs) : '"' ∉ withReturns cs := by
  intro member
  obtain ⟨c, inside, made⟩ := List.mem_flatMap.mp member
  split at made
  · simp at made
  · rw [List.mem_singleton] at made
    exact unquoted (made ▸ inside)

theorem isStray_return : IsStray '\r' where
  not_blank := rfl
  not_newline := by simp
  not_quote := by simp
  not_digit := rfl
  not_letter := rfl
  not_mark := rfl

theorem isApart_return : IsApart '\r' where
  not_word := rfl
  not_equal := by simp
  not_slash := by simp
  not_point := by simp

/-- With carriage returns a text begins as before, or with one of them. -/
theorem beginsAs_withReturns (cs : List Char) : BeginsAs (withReturns cs) cs := by
  intro c first
  cases cs with
  | nil => cases first
  | cons d cs =>
      by_cases newline : d = '\n'
      · subst newline
        obtain rfl := Option.some.inj first
        exact .inl isApart_return
      · rw [withReturns_cons_of_ne newline] at first
        exact .inr first

/-- A point that comes first with carriage returns came first without them. -/
theorem exists_of_withReturns_eq_point {tail : List Char} (point : withReturns cs = '.' :: tail) :
    ∃ after, cs = '.' :: after ∧ tail = withReturns after := by
  cases cs with
  | nil => cases point
  | cons d cs =>
      by_cases newline : d = '\n'
      · subst newline
        cases List.head_eq_of_cons_eq point
      · rw [withReturns_cons_of_ne newline] at point
        obtain ⟨rfl, rfl⟩ := List.cons.inj point
        exact ⟨cs, rfl, rfl⟩

end Characters

/-! ## Segments -/

theorem Lexeme.text_string_withReturns (body : List Char) :
    (string (withReturns body)).text = withReturns (string body).text := by
  change _ = withReturns ('"' :: (body ++ ['"']))
  rw [withReturns_cons_of_ne (by simp), withReturns_append]
  rfl

namespace Segment

/-- A string with a carriage return in front of each newline; any other segment stays what it is. -/
def widened : Segment → Segment
  | lexeme (.string body) => lexeme (.string (withReturns body))
  | openString body => openString (withReturns body)
  | segment => segment

/-- The segments with a carriage return in front of each newline. It belongs to a comment that the
newline ends, and stands alone before any other newline outside strings. -/
def returned : List Segment → List Segment
  | [] => []
  | comment body :: newline :: rest => comment (body ++ ['\r']) :: newline :: returned rest
  | newline :: rest => stray '\r' :: newline :: returned rest
  | segment :: rest => segment.widened :: returned rest

variable {segment : Segment} {segments : List Segment} {rest : List Char}

/-- The text of a widened segment is the text with carriage returns. -/
theorem text_widened (proper : segment.IsProper) (other : segment ≠ newline) :
    segment.widened.text = withReturns segment.text := by
  cases segment with
  | newline => exact (other rfl).elim
  | lexeme piece =>
      cases piece with
      | string body => exact Lexeme.text_string_withReturns body
      | _ =>
          have one_line := proper.newline_notMem_text (by simp) (by simp) (by simp)
          exact (withReturns_of_notMem one_line).symm
  | openString body => exact (withReturns_cons_of_ne (by simp) body).symm
  | _ =>
      have one_line := proper.newline_notMem_text (by simp) (by simp) (by simp)
      exact (withReturns_of_notMem one_line).symm

/-- A widened segment has as many newlines as before. -/
theorem newlines_widened (proper : segment.IsProper) (other : segment ≠ newline) :
    segment.widened.newlines = segment.newlines := by
  rw [newlines, text_widened proper other, count_newline_withReturns]
  rfl

/-- Where a segment can stand, the widened one can. -/
theorem isProper_widened (proper : segment.IsProper) : segment.widened.IsProper := by
  cases segment with
  | lexeme piece =>
      cases piece with
      | string body => exact quote_notMem_withReturns proper
      | _ => exact proper
  | openString body => exact quote_notMem_withReturns proper
  | _ => exact proper

/-- The text of the returned segments is the text with carriage returns. -/
theorem flatMap_text_returned (proper : ∀ segment ∈ segments, segment.IsProper) :
    (returned segments).flatMap text = withReturns (segments.flatMap text) := by
  fun_induction returned segments with
  | case1 => rfl
  | case2 body rest ih =>
      obtain ⟨one_line, others⟩ := List.forall_mem_cons.mp proper
      have whole : (comment body :: newline :: rest).flatMap text =
          '/' :: '/' :: body ++ ('\n' :: rest.flatMap text) := rfl
      rw [whole, withReturns_append, withReturns_comment one_line, List.flatMap_cons,
        List.flatMap_cons, ih (List.forall_mem_cons.mp others).2]
      exact List.append_assoc ('/' :: '/' :: body) ['\r'] _
  | case3 rest ih =>
      rw [List.flatMap_cons, List.flatMap_cons, ih (List.forall_mem_cons.mp proper).2,
        List.flatMap_cons, withReturns_append]
      rfl
  | case4 segment rest uncommented other ih =>
      obtain ⟨here, later⟩ := List.forall_mem_cons.mp proper
      rw [List.flatMap_cons, List.flatMap_cons, text_widened here other, ih later,
        withReturns_append]

/-- A lexeme still ends where it did when both it and what follows have carriage returns. -/
theorem endsBefore_widened {piece : Lexeme} (ends : piece.EndsBefore rest) :
    (lexeme piece).widened.EndsBefore (withReturns rest) := by
  have still : piece.EndsBefore (withReturns rest) := by
    apply ends.of_beginsAs (beginsAs_withReturns rest)
    intro tail point
    obtain ⟨after, whole, rfl⟩ := exists_of_withReturns_eq_point point
    exact ⟨after, whole, beginsAs_withReturns after⟩
  cases piece with
  | string body => trivial
  | _ => exact still

/-- Only a newline begins with a newline. -/
theorem IsCut.exists_newline_cons (cut : IsCut segments)
    (first : (segments.flatMap text).head? = some '\n') :
    ∃ rest, segments = newline :: rest := by
  obtain ⟨after, whole⟩ := List.head?_eq_some_iff.mp first
  have same := ofSource_flatMap_text cut
  rw [whole, ofSource] at same
  exact ⟨_, same.symm⟩

/-- The returned segments of a cut are a cut. -/
theorem IsCut.returned (cut : IsCut segments) : IsCut (Segment.returned segments) := by
  fun_induction Segment.returned segments with
  | case1 => trivial
  | case2 body rest ih =>
      obtain ⟨proper, -, -, -, later⟩ := cut
      have one_line : '\n' ∉ body := proper
      have still_one_line : '\n' ∉ body ++ ['\r'] := by simpa using one_line
      refine ⟨still_one_line, ?_, trivial, trivial, ih later⟩
      intro c first
      exact (Option.some.inj first).symm
  | case3 rest ih =>
      exact ⟨isStray_return, trivial, trivial, trivial, ih cut.2.2⟩
  | case4 segment rest uncommented other ih =>
      obtain ⟨proper, ends, later⟩ := cut
      refine ⟨isProper_widened proper, ?_, ih later⟩
      rw [flatMap_text_returned later.isProper]
      cases segment with
      | comment body =>
          -- No newline ends this comment, so it is the last segment.
          have nothing : rest.flatMap text = [] := by
            by_contra some_rest
            obtain ⟨c, after, whole⟩ := List.exists_cons_of_ne_nil some_rest
            rw [whole] at ends
            obtain rfl : c = '\n' := ends c rfl
            obtain ⟨others, rfl⟩ := later.exists_newline_cons (by rw [whole]; rfl)
            exact uncommented body others rfl rfl
          rw [nothing]
          exact endsBefore_nil _
      | lexeme piece => exact endsBefore_widened ends
      | openString body =>
          have nothing : rest.flatMap text = [] := ends
          rw [nothing]
          exact endsBefore_nil _
      | _ => trivial

/-- The segments of a source with carriage returns are the returned ones. -/
theorem ofSource_returned (source : String) :
    ofSource (LoxLexer.returned source).toList = returned (ofSource source.toList) := by
  have cut := isCut_ofSource source.toList
  rw [ofSource_eq_iff, flatMap_text_returned cut.isProper, flatMap_text_ofSource,
    LoxLexer.returned, String.toList_ofList]
  exact ⟨rfl, cut.returned⟩

end Segment

/-! ## Tokens -/

theorem Lexeme.kind_ne_string {piece : Lexeme} (other : ∀ body, piece ≠ string body) :
    piece.kind ≠ .string := by
  cases piece with
  | word letters =>
      rw [kind_word]
      cases Keyword.ofSpelling? (String.ofList letters) <;> nofun
  | string body => exact (other body rfl).elim
  | _ => nofun

/-- Only the token of a string can change. -/
theorem Lexeme.returned_token {piece : Lexeme} (other : ∀ body, piece ≠ string body)
    (line : Nat) : (piece.token line).returned = piece.token line :=
  if_neg (kind_ne_string other)

namespace Event

/-- The token of a widened segment is the token with carriage returns. -/
theorem token?_widened (line : Nat) (segment : Segment) :
    (segment.widened.event? line).bind token? =
      ((segment.event? line).bind token?).map Token.returned := by
  cases segment with
  | lexeme piece =>
      cases piece with
      | string body =>
          have string : ((Lexeme.string body).token line).kind = .string := rfl
          change some ((Lexeme.string (withReturns body)).token line) =
            some ((Lexeme.string body).token line).returned
          rw [Token.returned, if_pos string, Lexeme.token, Lexeme.text_string_withReturns,
            Lexeme.literal]
          simp [Lexeme.token, Lexeme.kind, Lexeme.literal, LoxLexer.returned, Literal.returned]
      | _ => exact congrArg some (Lexeme.returned_token (by nofun) line).symm
  | _ => rfl

/-- The tokens of segments are that of the first, if it has one, and those of the rest. -/
theorem filterMap_token?_cons (line : Nat) (segment : Segment) (rest : List Segment) :
    (ofSegments line (segment :: rest)).filterMap token? =
      ((segment.event? line).bind token?).toList ++
        (ofSegments (line + segment.newlines) rest).filterMap token? := by
  rw [ofSegments, List.filterMap_append]
  cases segment <;> rfl

/-- The tokens of the returned segments are the tokens with carriage returns. -/
theorem filterMap_token?_returned (line : Nat) {segments : List Segment}
    (proper : ∀ segment ∈ segments, segment.IsProper) :
    (ofSegments line (Segment.returned segments)).filterMap token? =
      ((ofSegments line segments).filterMap token?).map Token.returned := by
  fun_induction Segment.returned segments generalizing line with
  | case1 => rfl
  | case2 body rest ih =>
      have newlines : (Segment.comment (body ++ ['\r'])).newlines =
          (Segment.comment body).newlines := by
        simp [Segment.newlines, Segment.text]
      obtain ⟨-, others⟩ := List.forall_mem_cons.mp proper
      rw [filterMap_token?_cons, filterMap_token?_cons, newlines,
        ih _ (List.forall_mem_cons.mp others).2, filterMap_token?_cons, filterMap_token?_cons]
      rfl
  | case3 rest ih =>
      rw [filterMap_token?_cons, filterMap_token?_cons, filterMap_token?_cons]
      exact ih _ (List.forall_mem_cons.mp proper).2
  | case4 segment rest uncommented other ih =>
      obtain ⟨here, later⟩ := List.forall_mem_cons.mp proper
      rw [filterMap_token?_cons, filterMap_token?_cons, token?_widened line segment,
        Segment.newlines_widened here other, ih _ later, List.map_append]
      cases (segment.event? line).bind token? <;> rfl

end Event

/-! ## Spots -/

namespace Mode

/-- Carriage returns do not change the mode that a text leads to. -/
theorem after_withReturns (mode : Mode) (cs : List Char) :
    mode.after (withReturns cs) = mode.after cs := by
  induction cs generalizing mode with
  | nil => rfl
  | cons c cs ih =>
      by_cases newline : c = '\n'
      · subst newline
        change ((mode.next '\r').next '\n').after (withReturns cs) = (mode.next '\n').after cs
        rw [ih]
        cases mode <;> rfl
      · rw [withReturns_cons_of_ne newline]
        exact ih (mode.next c)

/-- With carriage returns each spot that is a newline has a diagnostic of its own. -/
theorem marked_withReturns (mode : Mode) (line : Nat) (cs : List Char) :
    (mode.marked line (withReturns cs)).filterMap Spot.diagnostic? =
      (mode.marked line cs).map Spot.returned := by
  induction cs generalizing mode line with
  | nil => rfl
  | cons c cs ih =>
      by_cases newline : c = '\n'
      · subst newline
        -- Where the newline is read as in code, so is the carriage return, and it is refused there.
        change (mode.marked line ('\r' :: '\n' :: withReturns cs)).filterMap _ = _
        have lines : line + ['\r'].count '\n' + ['\n'].count '\n' = line + ['\n'].count '\n' := rfl
        simp only [marked, lines, List.filterMap_append, List.map_append, ih]
        cases mode <;> rfl
      · have spot : (mode.spot? line c).toList.filterMap Spot.diagnostic? =
            (mode.spot? line c).toList.map Spot.returned := by
          simp only [spot?, newline, false_and, ↓reduceIte]
          split <;> rfl
        rw [withReturns_cons_of_ne newline, marked, marked, List.filterMap_append, List.map_append,
          spot, ih]

/-- A carriage return in front of a newline is refused where the newline is a spot. -/
theorem reported_withReturns (mode : Mode) (line : Nat) (cs : List Char) :
    mode.reported line (withReturns cs) = (mode.spots line cs).map Spot.returned := by
  unfold reported spots
  rw [List.filterMap_append, marked_withReturns, after_withReturns, count_newline_withReturns,
    List.map_append]
  split <;> rfl

/-- A newline is a spot unless it ends a comment or is in a string. -/
theorem spots_newline (mode : Mode) (line : Nat) (cs : List Char) :
    mode.spots line ('\n' :: cs) =
      (if mode = comment ∨ mode = string then [] else [⟨none, line⟩]) ++
        (mode.next '\n').spots (line + 1) cs := by
  change mode.spots line (['\n'] ++ cs) = _
  rw [spots_append]
  cases mode <;> rfl

end Mode

variable {σ : Type}

/-- A carriage return in front of each newline changes of the tokens only the texts of strings,
which have it too. What is reported stays, and a stray carriage return is reported beside it for
each newline that is in no string and ends no comment, in its place and on the line that it ends. -/
theorem scanWith_returned (sink : Sink σ) (state : σ) (source : String) :
    let spots := Mode.code.spots 1 source.toList
    (scanWith sink state (returned source)).tokens =
        (scanWith sink state source).tokens.map Token.returned ∧
      (scanWith .collecting [] source).sink = spots.filterMap Spot.diagnostic? ∧
      (scanWith .collecting [] (returned source)).sink = spots.map Spot.returned ∧
      ∀ before after, source.toList = before ++ '\n' :: after →
        let mode := Mode.code.after before
        let line := 1 + before.count '\n'
        spots = Mode.code.marked 1 before ++
          ((if mode = .comment ∨ mode = .string then [] else [⟨none, line⟩]) ++
            (mode.next '\n').spots (line + 1) after) := by
  intro spots
  have cut := Segment.isCut_ofSource source.toList
  refine ⟨?_, sink_scanWith_eq_spots source, ?_, ?_⟩
  · rw [tokens_scanWith, tokens_scanWith, Event.ofSource, Segment.ofSource_returned]
    exact Event.filterMap_token?_returned 1 cut.isProper
  · rw [sink_scanWith_eq_spots, returned, String.toList_ofList]
    exact Mode.code.reported_withReturns 1 source.toList
  · intro before after whole mode line
    calc spots = Mode.code.spots 1 (before ++ '\n' :: after) := by rw [← whole]
      _ = Mode.code.marked 1 before ++ mode.spots line ('\n' :: after) := Mode.spots_append ..
      _ = _ := by rw [Mode.spots_newline]

/-- A newline in code, one in a string, and one that ends a comment, before a string that is never
closed. -/
theorem scanWith_returned_at_three_newlines :
    let source := "a\n\"b\nc\"//d\n\""
    (scanWith .collecting [] (returned source)).tokens.map Token.lexeme =
        ["a", "\"b\r\nc\"", ""] ∧
      (scanWith .collecting [] source).sink = [⟨.unterminatedString, some 4, none⟩] ∧
      (scanWith .collecting [] (returned source)).sink =
        [⟨.unexpectedCharacter '\r', some 1, none⟩, ⟨.unterminatedString, some 4, none⟩] ∧
      Mode.code.spots 1 source.toList = [⟨none, 1⟩, ⟨some .unterminatedString, 4⟩] := by
  intro source
  obtain ⟨tokens, sink, sink_returned, newline⟩ := scanWith_returned .collecting [] source
  have whole : source.toList = ['a'] ++ '\n' :: "\"b\nc\"//d\n\"".toList := by decide +kernel
  refine ⟨?_, sink.trans (by decide +kernel), sink_returned.trans (by decide +kernel),
    (newline _ _ whole).trans (by decide +kernel)⟩
  rw [tokens]
  decide +kernel

end LoxLexer
