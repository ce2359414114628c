import LoxLexer.Proofs.Scan.Placed

/-! # Sources joined at newlines

Where no string is left open, a newline ends whatever comes before it. So a source that goes on
after a newline is scanned as two sources are, the second with its lines counted on
(`scanWith_joined`). -/

namespace LoxLexer

/-- The token that many lines further on. -/
def Token.moved (lines : Nat) (token : Token) : Token :=
  { token with line := lines + token.line }

/-- The diagnostic that many lines further on. -/
def Diagnostic.moved (lines : Nat) (diagnostic : Diagnostic) : Diagnostic :=
  { diagnostic with line := diagnostic.line.map (lines + ·) }

/-- A scan of the source reports a string that is never closed. -/
def LeavesStringOpen (source : String) : Prop :=
  .unterminatedString ∈ (scanWith .collecting [] source).sink.map Diagnostic.fault

instance : DecidablePred LeavesStringOpen :=
  fun _ => inferInstanceAs (Decidable (_ ∈ _))

/-- The pieces of a text that newlines join, each with the number of newlines before it. -/
def numbered : Nat → List String → List (Nat × String)
  | _, [] => []
  | lines, piece :: rest =>
    (lines, piece) :: numbered (lines + (piece.toList.count '\n' + 1)) rest

/-! ## Cuts -/

namespace Segment

theorem not_leavesStringOpen {source : String} (closed : ¬ LeavesStringOpen source) :
    ∀ segment ∈ ofSource source.toList, ∀ body, segment ≠ openString body := by
  rintro segment member body rfl
  apply closed
  unfold LeavesStringOpen
  rw [map_fault_scanWith]
  exact List.mem_filterMap.mpr ⟨_, member, rfl⟩

/-- A newline can follow any segment but a string that is never closed, also where the text before
the newline is no more than a point. -/
theorem EndsBefore.append_newline {segment : Segment} {rest : List Char}
    (ends : segment.EndsBefore rest) (closed : ∀ body, segment ≠ openString body)
    (later : List Char) : segment.EndsBefore (rest ++ '\n' :: later) := by
  by_cases nothing : rest = []
  · subst nothing
    exact endsBefore_newline closed later
  by_cases point : rest = ['.']
  · subst point
    cases segment with
    | lexeme piece =>
        cases piece with
        | number numeral =>
            refine ⟨ends.digit, ?_⟩
            intro _ c after whole
            cases whole
            rfl
        | punctuator mark => exact ⟨ends.equal, ends.slash⟩
        | _ => exact ends
    | openString body => cases ends
    | _ => exact ends
  · exact ends.append nothing point _

/-- Two cuts with a newline between them are a cut, if no string is open in the first. -/
theorem IsCut.append_newline {segments later : List Segment} (cut : IsCut segments)
    (closed : ∀ segment ∈ segments, ∀ body, segment ≠ openString body) (cut_later : IsCut later) :
    IsCut (segments ++ newline :: later) := by
  induction segments with
  | nil => exact ⟨trivial, trivial, cut_later⟩
  | cons segment rest ih =>
      obtain ⟨proper, ends, cut⟩ := cut
      obtain ⟨here, others⟩ := List.forall_mem_cons.mp closed
      have whole : (rest ++ newline :: later).flatMap text =
          rest.flatMap text ++ '\n' :: later.flatMap text := List.flatMap_append
      refine ⟨proper, ?_, ih cut others⟩
      change segment.EndsBefore ((rest ++ newline :: later).flatMap text)
      rw [whole]
      exact ends.append_newline here _

/-- A newline that no string takes in cuts a source in two. -/
theorem ofSource_append_newline {first second : String} (closed : ¬ LeavesStringOpen first) :
    ofSource (first ++ "\n" ++ second).toList =
      ofSource first.toList ++ newline :: ofSource second.toList := by
  rw [ofSource_eq_iff]
  constructor
  · simp [flatMap_text_ofSource, text]
  · apply IsCut.append_newline (isCut_ofSource _) (not_leavesStringOpen closed) (isCut_ofSource _)

end Segment

/-! ## Places -/

namespace Placed

/-- The place with a text in front of the whole. -/
def behind (front : List Char) (placed : Placed) : Placed :=
  { placed with before := front ++ placed.before }

/-- More text in front of the whole is in front of every segment. -/
theorem ofSegments_append_left (front before : List Char) (segments : List Segment) :
    ofSegments (front ++ before) segments = (ofSegments before segments).map (behind front) := by
  induction segments generalizing before with
  | nil => rfl
  | cons segment rest ih =>
      unfold ofSegments
      rw [List.append_assoc, ih]
      rfl

/-- A text in front of a place moves it down by the newlines of that text. -/
theorem line_behind (front : List Char) (placed : Placed) :
    (placed.behind front).line = front.count '\n' + placed.line := by
  simp only [line, behind, List.count_append]
  omega

/-- What is read off a place moves with the place, and is nothing at a newline. -/
structure Moves {α : Type} (read : Placed → Option α) (moved : Nat → α → α) : Prop where
  at_newline : ∀ before, read ⟨before, .newline⟩ = none
  behind : ∀ front placed, read (placed.behind front) =
    (read placed).map (moved (front.count '\n'))
  moved_moved : ∀ lines more found, moved lines (moved more found) = moved (lines + more) found

/-- Tokens move with the places they are read off. -/
theorem moves_token? : Moves token? Token.moved where
  at_newline _ := rfl
  behind front placed := by
    unfold token? event?
    rw [line_behind]
    obtain ⟨before, segment⟩ := placed
    cases segment <;> rfl
  moved_moved lines more token := by
    simp [Token.moved, Nat.add_assoc]

theorem moves_diagnostic? : Moves diagnostic? Diagnostic.moved where
  at_newline _ := rfl
  behind front placed := by
    unfold diagnostic? event?
    rw [line_behind]
    obtain ⟨before, segment⟩ := placed
    cases segment with
    | openString body =>
        simp [Placed.behind, Segment.event?, Event.diagnostic?, Diagnostic.moved, Nat.add_assoc]
    | _ => rfl
  moved_moved lines more diagnostic := by
    obtain ⟨fault, line, file⟩ := diagnostic
    cases line <;> simp [Diagnostic.moved, Nat.add_assoc]

/-- Behind a source and a newline are the places of the source, one newline, and the places of what
follows. -/
theorem ofSource_append_newline {first : String} (closed : ¬ LeavesStringOpen first)
    (second : String) :
    ofSource (first ++ "\n" ++ second) =
      ofSource first ++ ⟨first.toList, .newline⟩ ::
        (ofSource second).map (behind (first.toList ++ ['\n'])) := by
  unfold ofSource
  rw [Segment.ofSource_append_newline closed, ofSegments_append, Segment.flatMap_text_ofSource,
    ← ofSegments_append_left, List.nil_append, List.append_nil]
  rfl

namespace Moves
variable {α : Type} {read : Placed → Option α} {moved : Nat → α → α}

/-- What is read off two sources with a newline between them is what is read off each, moved down in
the second. -/
theorem filterMap_append_newline (moves : Moves read moved) {first : String}
    (closed : ¬ LeavesStringOpen first) (second : String) :
    (ofSource (first ++ "\n" ++ second)).filterMap read =
      (ofSource first).filterMap read ++
        ((ofSource second).filterMap read).map (moved (first.toList.count '\n' + 1)) := by
  have second_moved : read ∘ Placed.behind (first.toList ++ ['\n']) =
      fun placed => (read placed).map (moved (first.toList.count '\n' + 1)) := by
    funext placed
    simp [moves.behind]
  rw [ofSource_append_newline closed, List.filterMap_append,
    List.filterMap_cons_none (moves.at_newline _), List.filterMap_map, second_moved,
    List.map_filterMap]

/-- What is read off pieces with newlines between them is what is read off each, moved down to where
the piece begins. -/
theorem filterMap_intercalate (moves : Moves read moved) {pieces : List String}
    (closed : ∀ piece ∈ pieces, ¬ LeavesStringOpen piece) (lines : Nat) :
    ((ofSource ("\n".intercalate pieces)).filterMap read).map (moved lines) =
      (numbered lines pieces).flatMap fun place =>
        ((ofSource place.2).filterMap read).map (moved place.1) := by
  induction pieces generalizing lines with
  | nil => simp [numbered, ofSource, Segment.ofSource, ofSegments]
  | cons piece rest ih =>
      obtain ⟨here, others⟩ := List.forall_mem_cons.mp closed
      rw [numbered, List.flatMap_cons]
      cases rest with
      | nil => simp [numbered]
      | cons next rest =>
          have later : moved lines ∘ moved (piece.toList.count '\n' + 1) =
              moved (lines + (piece.toList.count '\n' + 1)) := by
            funext found
            exact moves.moved_moved _ _ _
          rw [String.intercalate_cons_cons, moves.filterMap_append_newline here, List.map_append,
            List.map_map, later, ih others]

end Moves

end Placed

/-! ## Scans -/

/-- The tokens of a scan without the last are those that its segments make. -/
theorem dropLast_tokens_scanWith (source : String) :
    (scanWith .collecting [] source).tokens.dropLast =
      (Placed.ofSource source).filterMap Placed.token? := by
  rw [tokens_scanWith_eq_placed, List.dropLast_concat]

/-- Pieces of one line each are numbered one by one. -/
theorem numbered_of_lines {lines : List String} (one_line : ∀ line ∈ lines, '\n' ∉ line.toList)
    (start : Nat) : numbered start lines = (lines.zipIdx start).map Prod.swap := by
  induction lines generalizing start with
  | nil => rfl
  | cons line rest ih =>
      obtain ⟨one_line, others⟩ := List.forall_mem_cons.mp one_line
      rw [numbered, List.count_eq_zero.mpr one_line, ih others]
      rfl

/-- A source that leaves no string open, a newline and any other source are scanned as the two are,
the second with its lines counted on. So pieces that leave no string open, joined by newlines, are
scanned as each is alone, with the newlines before it counted on: as many as there are lines before
it, if every piece is one line. -/
theorem scanWith_joined :
    (∀ first second : String, ¬ LeavesStringOpen first →
      (scanWith .collecting [] (first ++ "\n" ++ second)).tokens =
          (scanWith .collecting [] first).tokens.dropLast ++
            (scanWith .collecting [] second).tokens.map
              (Token.moved (first.toList.count '\n' + 1)) ∧
        (scanWith .collecting [] (first ++ "\n" ++ second)).sink =
          (scanWith .collecting [] first).sink ++
            (scanWith .collecting [] second).sink.map
              (Diagnostic.moved (first.toList.count '\n' + 1))) ∧
      (∀ pieces : List String, (∀ piece ∈ pieces, ¬ LeavesStringOpen piece) →
        (scanWith .collecting [] ("\n".intercalate pieces)).tokens =
            ((numbered 0 pieces).flatMap fun place =>
              (scanWith .collecting [] place.2).tokens.dropLast.map (Token.moved place.1)) ++
              [.eof (1 + ("\n".intercalate pieces).toList.count '\n')] ∧
          (scanWith .collecting [] ("\n".intercalate pieces)).sink =
            (numbered 0 pieces).flatMap fun place =>
              (scanWith .collecting [] place.2).sink.map (Diagnostic.moved place.1)) ∧
      ∀ lines : List String, (∀ line ∈ lines, '\n' ∉ line.toList) →
        numbered 0 lines = lines.zipIdx.map Prod.swap := by
  have still_token : Token.moved 0 = id := by
    funext token
    simp [Token.moved]
  have still_diagnostic : Diagnostic.moved 0 = id := by
    funext ⟨fault, line, file⟩
    cases line <;> simp [Diagnostic.moved]
  refine ⟨fun first second closed => ⟨?_, ?_⟩, fun pieces closed => ⟨?_, ?_⟩, ?_⟩
  · rw [dropLast_tokens_scanWith, tokens_scanWith_eq_placed, tokens_scanWith_eq_placed,
      Placed.moves_token?.filterMap_append_newline closed, List.map_append, List.append_assoc]
    have ending : (Token.eof (1 + second.toList.count '\n')).moved (first.toList.count '\n' + 1) =
        .eof (1 + (first ++ "\n" ++ second).toList.count '\n') := by
      simp [Token.moved, Token.eof]
      omega
    rw [List.map_singleton, ending]
  · simp only [sink_scanWith_eq_placed]
    exact Placed.moves_diagnostic?.filterMap_append_newline closed second
  · have joined := Placed.moves_token?.filterMap_intercalate closed 0
    simp only [dropLast_tokens_scanWith]
    rw [tokens_scanWith_eq_placed, ← joined, still_token, List.map_id]
  · have joined := Placed.moves_diagnostic?.filterMap_intercalate closed 0
    simp only [sink_scanWith_eq_placed]
    rw [← joined, still_diagnostic, List.map_id]
  · exact fun lines one_line => numbered_of_lines one_line 0

/-- A slash at the end of one line and a slash at the start of the next make no comment. -/
theorem scanWith_joined_at_slashes :
    ¬ LeavesStringOpen "12./" ∧
      (scanWith .collecting [] ("12./" ++ "\n" ++ "/5 @")).sink =
        [⟨.unexpectedCharacter '@', some 2, none⟩] ∧
      (∀ piece ∈ ["12./", "/5 @"], ¬ LeavesStringOpen piece) ∧
      (scanWith .collecting [] ("\n".intercalate ["12./", "/5 @"])).tokens.map
          (fun token => (token.lexeme, token.line)) =
        [("12", 1), (".", 1), ("/", 1), ("/", 2), ("5", 2), ("", 2)] ∧
      (∀ line ∈ ["12./", "/5 @"], '\n' ∉ line.toList) ∧
      numbered 0 ["12./", "/5 @"] = [(0, "12./"), (1, "/5 @")] := by
  have closed : ¬ LeavesStringOpen "12./" := by decide +kernel
  have each : ∀ piece ∈ ["12./", "/5 @"], ¬ LeavesStringOpen piece := by decide +kernel
  have one_line : ∀ line ∈ ["12./", "/5 @"], '\n' ∉ line.toList := by decide +kernel
  refine ⟨closed, ?_, each, ?_, one_line, scanWith_joined.2.2 _ one_line⟩
  · rw [(scanWith_joined.1 _ _ closed).2]
    decide +kernel
  · rw [(scanWith_joined.2.1 _ each).1]
    decide +kernel

end LoxLexer
