import LoxLexer.Proofs.Scan.ModeAutomaton

/-! # Spots

Read from left to right, a source has spots on its lines: a character that the automaton refuses, a
newline that is read as in code, and the end of the source if that is in a string (`Mode.spots`).
The newlines in strings and those that end comments are no spots. The spots that are faults are what
a scan reports, each on its line (`sink_scanWith_eq_spots`). -/

namespace LoxLexer

/-- A fault on a line, or the newline that ends it. -/
structure Spot where
  fault? : Option Fault
  line : Nat
  deriving DecidableEq, Repr

/-- What is reported at the spot. -/
def Spot.diagnostic? (spot : Spot) : Option Diagnostic :=
  spot.fault?.map fun fault => ⟨fault, some spot.line, none⟩

namespace Mode

/-- The spot that a character makes on its line, if it makes one. -/
def spot? (mode : Mode) (line : Nat) (c : Char) : Option Spot :=
  if mode.refuses c then some ⟨some (.unexpectedCharacter c), line⟩
  else if c = '\n' ∧ mode.readsCode c then some ⟨none, line⟩
  else none

/-- The spots that the characters of a text make, from the given line on. -/
def marked : Mode → Nat → List Char → List Spot
  | _, _, [] => []
  | mode, line, c :: cs =>
    (mode.spot? line c).toList ++ marked (mode.next c) (line + [c].count '\n') cs

/-- The spots of a text that begins on the given line. -/
def spots (mode : Mode) (line : Nat) (cs : List Char) : List Spot :=
  mode.marked line cs ++
    if mode.after cs = string then [⟨some .unterminatedString, line + cs.count '\n'⟩] else []

/-- What is reported of a text that begins on the given line. -/
def reported (mode : Mode) (line : Nat) (cs : List Char) : List Diagnostic :=
  (mode.spots line cs).filterMap Spot.diagnostic?

/-- The characters of two texts make spots in their turn, on lines that go on. -/
theorem marked_append (mode : Mode) (line : Nat) (as bs : List Char) :
    mode.marked line (as ++ bs) =
      mode.marked line as ++ (mode.after as).marked (line + as.count '\n') bs := by
  induction as generalizing mode line with
  | nil => rfl
  | cons a as ih =>
      have lines : line + [a].count '\n' + as.count '\n' = line + (a :: as).count '\n' := by
        rw [Nat.add_assoc, ← List.count_append]
        rfl
      change _ ++ marked (mode.next a) _ (as ++ bs) = (_ ++ marked (mode.next a) _ as) ++ _
      rw [ih, lines, List.append_assoc]
      rfl

/-- The end of a text comes behind both of its parts. -/
theorem spots_append (mode : Mode) (line : Nat) (as bs : List Char) :
    mode.spots line (as ++ bs) =
      mode.marked line as ++ (mode.after as).spots (line + as.count '\n') bs := by
  unfold spots
  rw [marked_append, after_append, List.count_append, Nat.add_assoc, List.append_assoc]

theorem reported_append (mode : Mode) (line : Nat) (as bs : List Char) :
    mode.reported line (as ++ bs) =
      (mode.marked line as).filterMap Spot.diagnostic? ++
        (mode.after as).reported (line + as.count '\n') bs := by
  unfold reported
  rw [spots_append, List.filterMap_append]

/-- Where nothing is refused, nothing is reported. -/
theorem filterMap_marked_of_refused {mode : Mode} {cs : List Char} (none : mode.refused cs = [])
    (line : Nat) : (mode.marked line cs).filterMap Spot.diagnostic? = [] := by
  induction cs generalizing mode line with
  | nil => rfl
  | cons c cs ih =>
      obtain ⟨here, later⟩ := List.append_eq_nil_iff.mp none
      have accepted : mode.refuses c = false := by
        by_contra refused
        rw [Bool.not_eq_false] at refused
        rw [if_pos refused] at here
        cases here
      have silent : (mode.spot? line c).toList.filterMap Spot.diagnostic? = [] := by
        simp only [spot?, accepted, Bool.false_eq_true, ↓reduceIte]
        split <;> rfl
      rw [marked, List.filterMap_append, silent, ih later]
      rfl

/-- A text without refused characters moves the lines that are reported. -/
theorem reported_append_of_run {mode stop : Mode} {as : List Char}
    (run : mode.after as = stop ∧ mode.refused as = []) (line : Nat) (bs : List Char) :
    mode.reported line (as ++ bs) = stop.reported (line + as.count '\n') bs := by
  obtain ⟨stops, accepted⟩ := run
  rw [reported_append, filterMap_marked_of_refused accepted, stops]
  rfl

/-! ## Modes that go on as code does -/

/-- Behind a slash, the reports are those of code unless a second one comes first. -/
theorem reported_slash {rest : List Char} (apart : rest.head? ≠ some '/') (line : Nat) :
    slash.reported line rest = code.reported line rest := by
  cases rest with
  | nil => rfl
  | cons c cs =>
      obtain ⟨step, reads⟩ := step_slash apart
      unfold reported spots marked spot? after refuses
      rw [List.foldl_cons, List.foldl_cons, step, reads]

theorem reported_comment {rest : List Char} (ended : ∀ c ∈ rest.head?, c = '\n') (line : Nat) :
    comment.reported line rest = code.reported line rest := by
  cases rest with
  | nil => rfl
  | cons c cs =>
      obtain rfl : c = '\n' := ended c rfl
      rfl

/-! ## Segments -/

/-- Over a segment what is wrong with it is reported, and then what is in the code behind it. -/
theorem reported_text_append {segment : Segment} {rest : List Char} (proper : segment.IsProper)
    (ends : segment.EndsBefore rest) (line : Nat) :
    code.reported line (segment.text ++ rest) =
      ((segment.event? line).bind Event.diagnostic?).toList ++
        code.reported (line + segment.newlines) rest := by
  obtain ⟨stops, refused⟩ := run_text proper
  cases segment with
  | comment body =>
      rw [reported_append_of_run ⟨stops, refused⟩]
      exact reported_comment ends _
  | lexeme piece =>
      rw [reported_append_of_run ⟨stops, refused⟩]
      by_cases slash : piece = .punctuator .slash
      · subst slash
        exact reported_slash (ends.slash rfl) _
      · rw [behind_lexeme slash]
        rfl
  | stray c =>
      have illegal : refuses code c = true := by
        rw [refuses, IsStray.isLegal_eq_false proper]
        rfl
      have spot : code.marked line [c] = [⟨some (.unexpectedCharacter c), line⟩] := by
        rw [marked, spot?, if_pos illegal]
        rfl
      rw [reported_append, stops, Segment.text, spot]
      rfl
  | openString body =>
      cases ends
      have lines : ('"' :: body).count '\n' = body.count '\n' := List.count_cons_of_ne (by decide)
      rw [reported_append_of_run ⟨stops, refused⟩, Segment.text, lines]
      rfl
  | _ => exact reported_append_of_run ⟨stops, refused⟩ line rest

/-- The automaton reports of a cut what a scan of its segments does. -/
theorem reported_flatMap_text {segments : List Segment} (cut : Segment.IsCut segments)
    (line : Nat) :
    code.reported line (segments.flatMap Segment.text) =
      (Event.ofSegments line segments).filterMap Event.diagnostic? := by
  induction segments generalizing line with
  | nil => rfl
  | cons segment rest ih =>
      obtain ⟨proper, ends, later⟩ := cut
      rw [List.flatMap_cons, reported_text_append proper ends, ih later, Event.ofSegments,
        List.filterMap_append]
      cases segment <;> rfl

end Mode

/-- What a scan reports are the spots that are faults, each on its line. -/
theorem sink_scanWith_eq_spots (source : String) :
    (scanWith .collecting [] source).sink =
      (Mode.code.spots 1 source.toList).filterMap Spot.diagnostic? := by
  have cut := Segment.isCut_ofSource source.toList
  rw [sink_scanWith_collecting, Event.ofSource, ← Mode.reported_flatMap_text cut,
    Segment.flatMap_text_ofSource]
  rfl

end LoxLexer
