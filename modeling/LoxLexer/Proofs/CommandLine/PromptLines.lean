import LoxLexer.Proofs.CommandLine.Session
import LoxLexer.Proofs.Scan.Tiling

/-! # The lines of a prompt

A prompt reads its input line by line (`Page.lines_text`), and what it shows is what it shows of
each line alone, one after the other, whatever the lines before have left open (`run_lines`). A line
without newlines has all its diagnostics on its first line (`line_of_mem_scanWith`), and a carriage
return before the newline that ends a line is not part of the line (`Page.lines_returned`). -/

namespace LoxLexer.CommandLine

/-- A text as lines that are ended and what stands behind the last of them. -/
structure Page where
  ended : List (List Char)
  last : List Char
  ended_unbroken : ∀ line ∈ ended, '\n' ∉ line
  last_unbroken : '\n' ∉ last

namespace Page

/-- The text of the page, every line being ended in the same way. -/
def text (page : Page) (ending : List Char) : String :=
  String.ofList (page.ended.flatMap (· ++ ending) ++ page.last)

/-- The lines that are read from the page: what stands behind the last that is ended is a line of
its own unless it is empty. -/
def lines (page : Page) : List String :=
  (page.ended.map Input.withoutReturn ++ [page.last].filter (· ≠ [])).map String.ofList

/-- The page whose lines are those of another with a carriage return behind each that is ended. -/
def returned (page : Page) : Page where
  ended := page.ended.map (· ++ ['\r'])
  last := page.last
  ended_unbroken := by
    intro line member
    obtain ⟨bare, place, rfl⟩ := List.mem_map.mp member
    simpa using page.ended_unbroken bare place
  last_unbroken := page.last_unbroken

/-- Carriage returns behind the lines can be taken as part of them or of their endings. -/
theorem text_returned (page : Page) : page.returned.text ['\n'] = page.text ['\r', '\n'] := by
  simp [text, returned, List.flatMap_map]

/-- Every text is that of a page. -/
theorem exists_text_eq (text : String) : ∃ page : Page, page.text ['\n'] = text := by
  have characters (cs : List Char) :
      ∃ page : Page, page.ended.flatMap (· ++ ['\n']) ++ page.last = cs := by
    induction cs with
    | nil => exact ⟨⟨[], [], List.forall_mem_nil _, List.not_mem_nil⟩, rfl⟩
    | cons c rest ih =>
        obtain ⟨⟨ended, last, unbroken, last_unbroken⟩, rfl⟩ := ih
        by_cases newline : c = '\n'
        · subst newline
          exact ⟨⟨[] :: ended, last, List.forall_mem_cons.mpr ⟨List.not_mem_nil, unbroken⟩,
            last_unbroken⟩, rfl⟩
        · have longer {line : List Char} (bare : '\n' ∉ line) : '\n' ∉ c :: line :=
            List.not_mem_cons_of_ne_of_not_mem (Ne.symm newline) bare
          cases ended with
          | nil => exact ⟨⟨[], c :: last, unbroken, longer last_unbroken⟩, rfl⟩
          | cons line others =>
              obtain ⟨first, later⟩ := List.forall_mem_cons.mp unbroken
              exact ⟨⟨(c :: line) :: others, last,
                List.forall_mem_cons.mpr ⟨longer first, later⟩, last_unbroken⟩, rfl⟩
  obtain ⟨page, whole⟩ := characters text.toList
  exact ⟨page, by rw [Page.text, whole, String.ofList_toList]⟩

/-- Cut at its newlines, the text of a page falls into the lines of the page. -/
theorem splitOn_text (page : Page) :
    (page.text ['\n']).toList.splitOn '\n' = page.ended ++ [page.last] := by
  obtain ⟨ended, last, unbroken, last_unbroken⟩ := page
  rw [text, String.toList_ofList]
  induction ended with
  | nil => exact List.splitOn_eq_singleton last_unbroken
  | cons line others ih =>
      obtain ⟨first, later⟩ := List.forall_mem_cons.mp unbroken
      rw [List.flatMap_cons, List.append_assoc, List.append_assoc]
      exact (List.splitOn_append_cons_self_of_not_mem first _).trans
        (congrArg (line :: ·) (ih later))

/-- The lines of an input are those of its page. -/
theorem lines_text (page : Page) : ({ text := page.text ['\n'] } : Input).lines = page.lines := by
  unfold Input.lines
  simp only [splitOn_text, List.dropLast_concat, List.getLast?_concat]
  rfl

/-- Lines that do not end in a carriage return are read alike with and without one behind them. -/
theorem lines_returned (page : Page)
    (no_return : ∀ line ∈ page.ended, line.getLast? ≠ some '\r') :
    page.returned.lines = page.lines := by
  have bare (line : List Char) (member : line ∈ page.ended) :
      Input.withoutReturn (line ++ ['\r']) = Input.withoutReturn line := by
    unfold Input.withoutReturn
    rw [if_neg (no_return line member), List.getLast?_concat, if_pos rfl, List.dropLast_concat]
  have read : page.returned.ended.map Input.withoutReturn =
      page.ended.map Input.withoutReturn := by
    rw [returned, List.map_map]
    exact List.map_congr_left bare
  rw [lines, read]
  rfl

theorem newline_notMem_of_mem_lines (page : Page) {line : String} (member : line ∈ page.lines) :
    '\n' ∉ line.toList := by
  obtain ⟨characters, read, rfl⟩ := List.mem_map.mp member
  rw [String.toList_ofList]
  rcases List.mem_append.mp read with ended | last
  · obtain ⟨bare, place, rfl⟩ := List.mem_map.mp ended
    unfold Input.withoutReturn
    split
    · exact fun inside => page.ended_unbroken bare place (List.dropLast_subset bare inside)
    · exact page.ended_unbroken bare place
  · obtain rfl := List.mem_singleton.mp (List.mem_of_mem_filter last)
    exact page.last_unbroken

end Page

/-- Bytes that are UTF-8 are read as the text that they are. -/
theorem Input.ofBytes_toUTF8 (text : String) : Input.ofBytes text.toUTF8 = { text } := by
  have decoded : String.fromUTF8? text.toUTF8 = some text := by
    rw [String.fromUTF8?, String.toUTF8_eq_toByteArray, dif_pos text.isValidUTF8]
    rfl
  rw [Input.ofBytes, decoded]

/-! ## One line -/

/-- What is wrong in a text without newlines is wrong on its first line, in no file. -/
theorem line_of_mem_scanWith {text : String} (unbroken : '\n' ∉ text.toList)
    {diagnostic : Diagnostic} (member : diagnostic ∈ (scanWith .collecting [] text).sink) :
    diagnostic.line = some 1 ∧ diagnostic.file = none := by
  refine ⟨?_, file_of_mem_scanWith member⟩
  rw [sink_scanWith_eq_placed] at member
  obtain ⟨placed, place, made⟩ := List.mem_filterMap.mp member
  obtain ⟨line, on_line, above, below⟩ := Placed.exists_line_of_diagnostic? made
  have inside := Placed.prefix_of_mem_ofSegments place
  rw [List.nil_append, Segment.flatMap_text_ofSource] at inside
  have newlines := inside.count_le '\n'
  rw [List.count_eq_zero_of_not_mem unbroken] at newlines
  rw [on_line]
  congr 1
  omega

/-- The lines of the diagnostics of a text, as they are printed where there is no file. -/
def faultLines (text : String) : List String :=
  (scanWith .collecting [] text).sink.map fun diagnostic => diagnostic.text ++ "\n"

/-- A reporter without a file prints the diagnostics of a text as they are. -/
theorem errs_scanWith_of_no_file {reporter : Reporter} (no_file : reporter.file = none)
    (text : String) :
    (scanWith Reporter.sink reporter text).emissions.filterMap Emission.err? =
      faultLines text := by
  rw [Reporter.errs_scanWith, no_file]
  apply List.map_congr_left
  intro diagnostic _
  rw [Reporter.line, Option.or_none]

/-! ## All lines -/

theorem file_scanWith (reporter : Reporter) (text : String) :
    (scanWith Reporter.sink reporter text).sink.file = reporter.file := by
  have file (events : List Event) (reporter : Reporter) :
      (Reporter.sink.run reporter events).sink.file = reporter.file := by
    induction events generalizing reporter with
    | nil => rfl
    | cons event rest ih => exact (ih _).trans (Reporter.file_take reporter event)
  exact file _ reporter

/-- A reporter that has no file prints of each line what any other such reporter would. -/
theorem errs_answer (quiet : Bool) {reporter : Reporter} (no_file : reporter.file = none)
    (lines : List String) :
    (Prompt.answer quiet reporter lines).filterMap Emission.err? = lines.flatMap faultLines := by
  induction lines generalizing reporter with
  | nil => rfl
  | cons line rest ih =>
      have later : (scanWith Reporter.sink reporter line).sink.reset.file = none :=
        (file_scanWith reporter line).trans no_file
      rw [answer_cons, List.filterMap_cons_none rfl, List.filterMap_append, List.filterMap_append,
        errs_scanWith_of_no_file no_file, errs_listing, List.append_nil, ih later,
        List.flatMap_cons]

/-- A prompt whose input is text and whose history can be saved says nothing on the standard error
but what is wrong in its lines. -/
theorem errs_prompt (quiet : Bool) (read : FileReader) (text : String) :
    (prompt quiet read { text } (.ok ())).filterMap Emission.err? =
      ({ text } : Input).lines.flatMap faultLines := by
  rw [prompt, List.filterMap_append, List.filterMap_append, List.filterMap_append,
    filterMap_loadHistory fun _ => rfl, errs_answer quiet rfl, List.nil_append, List.append_assoc]
  exact List.append_nil _

/-- A run reads of its input nothing but the lines and whether it is broken. -/
theorem run_congr_lines (arguments : List String) (read : FileReader)
    (saved : Except FileError Unit) {input other : Input} (lines : input.lines = other.lines)
    (broken : input.broken = other.broken) :
    run arguments read input saved = run arguments read other saved := by
  have same (quiet : Bool) : prompt quiet read input saved = prompt quiet read other saved := by
    simp only [prompt, Prompt.farewell, lines, broken]
  simp only [run, runOptions, same]

/-- A prompt that is fed a text and can save its history ends well whatever it reports. On the
standard output it lists the tokens of each line of the text alone, in order, unless it is quiet,
and then parts; on the standard error it prints the diagnostics of each line alone, all on the first
line and in no file. A text whose lines end in a carriage return and a newline is answered as the
text whose lines end in the newline alone, unless one of those ends in a carriage return itself. -/
theorem run_lines {arguments : List String} {quiet : Bool} (asks : AsksToScan arguments quiet [])
    {saved : Except FileError Unit} (storable : saved = .ok ()) (read : FileReader)
    (terminal : Bool) (text : String) :
    let outcome := run arguments read (.ofBytes text.toUTF8) saved
    ∃ page : Page, page.text ['\n'] = text ∧
      outcome.status = 0 ∧
      outcome.outText =
        (if quiet then "" else String.join (page.lines.flatMap tokenLines)) ++ "bye!\n" ∧
      outcome.errText (Log.Logging.init {} none terminal) =
        String.join (page.lines.flatMap faultLines) ∧
      (∀ line ∈ page.lines, ∀ diagnostic ∈ (scanWith .collecting [] line).sink,
        diagnostic.line = some 1 ∧ diagnostic.file = none) ∧
      ((∀ line ∈ page.ended, line.getLast? ≠ some '\r') →
        run arguments read (.ofBytes (page.text ['\r', '\n']).toUTF8) saved = outcome) := by
  subst storable
  obtain ⟨page, rfl⟩ := Page.exists_text_eq text
  intro outcome
  have prompted : outcome =
      { emissions := prompt quiet read { text := page.text ['\n'] } (.ok ()) } := by
    change run arguments read (.ofBytes _) (.ok ()) = _
    rw [Input.ofBytes_toUTF8, asks.run_eq]
    rfl
  refine ⟨page, rfl, ?_, ?_, ?_, ?_, ?_⟩
  · rw [prompted]
  · rw [prompted, Outcome.outText, Emission.join_map_outText, outs_prompt, page.lines_text,
      String.join_append]
    cases quiet <;> rfl
  · rw [prompted, Outcome.errText]
    exact (Reporter.printed_eq _).trans
      (congrArg String.join ((errs_prompt quiet read _).trans
        (congrArg (List.flatMap faultLines) page.lines_text)))
  · intro line member diagnostic found
    exact line_of_mem_scanWith (page.newline_notMem_of_mem_lines member) found
  · intro no_return
    change _ = run arguments read (.ofBytes _) (.ok ())
    rw [← page.text_returned, Input.ofBytes_toUTF8, Input.ofBytes_toUTF8]
    apply run_congr_lines
    · rw [page.returned.lines_text, page.lines_text, page.lines_returned no_return]
    · rfl

/-- A line with an open string, one that ends in a carriage return, and one that is not ended. -/
theorem run_lines_behind_open_string :
    let read : FileReader := fun _ => .error (.system .noSuchFile)
    let outcome := run [] read (.ofBytes "\"(\n)\r\n(".toUTF8)
    outcome.status = 0 ∧
      outcome.outText =
        "EOF  null\nRIGHT_PAREN ) null\nEOF  null\nLEFT_PAREN ( null\nEOF  null\nbye!\n" ∧
      outcome.errText {} = "[line 1] Error: Unterminated string.\n" := by
  intro read outcome
  have asks : AsksToScan [] false [] := ⟨{}, rfl, ⟨rfl, rfl⟩, rfl, rfl⟩
  have storable : Prompt.saving read (.ofBytes "\"(\n)\r\n(".toUTF8) = .ok () := by
    decide +kernel
  obtain ⟨page, whole, status, out, err, -⟩ := run_lines asks storable read false "\"(\n)\r\n("
  have lines : page.lines = ["\"(", ")", "("] := by
    rw [← page.lines_text, whole]
    decide +kernel
  rw [lines] at out err
  exact ⟨status, out.trans (by decide +kernel), err.trans (by decide +kernel)⟩

end LoxLexer.CommandLine
