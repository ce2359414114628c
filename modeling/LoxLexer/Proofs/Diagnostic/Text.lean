import LoxLexer.Proofs.Sink.Reporter
import LoxLexer.Proofs.Text.Escape

/-! # Texts of diagnostics

The text of a diagnostic joins its line, its fault and its file without saying how long each of them
is. For a fault of the source's text each part still tells where it ends
(`Diagnostic.linePart_append_inj`, `Fault.message_append_inj`), so the text tells the diagnostic,
and it is a single line unless the name of the file is more than one. A scan therefore writes as
many lines as a reporter counts (`Diagnostic.eq_of_text_and_lines`). -/

namespace LoxLexer

/-! ## Parts of a text -/

namespace Diagnostic

/-- The text before the fault. -/
def linePart (line : Option Nat) : List Char :=
  line.elim [] fun line => "[line ".toList ++ Nat.toDigits 10 line ++ "] ".toList

/-- The text behind the fault. -/
def filePart (file : Option String) : List Char :=
  file.elim [] fun file => " in ".toList ++ file.toList

/-- The text of a diagnostic, part by part: its line, its fault and its file. -/
theorem toList_text (diagnostic : Diagnostic) :
    diagnostic.text.toList =
      linePart diagnostic.line ++ ("Error: ".toList ++
        (diagnostic.fault.message.toList ++ filePart diagnostic.file)) := by
  obtain ⟨fault, line, file⟩ := diagnostic
  cases line <;> cases file <;> simp [text, linePart, filePart]

theorem notMem_toDigits {c : Char} (other : c.isDigit = false) (number : Nat) :
    c ∉ Nat.toDigits 10 number := by
  intro inside
  have digit := Nat.isDigit_of_mem_toDigits (by decide) (by decide) inside
  rw [other] at digit
  cases digit

/-- The line of a diagnostic is told by what stands before its fault. -/
theorem linePart_append_inj {line other : Option Nat} {rest later : List Char}
    (same : linePart line ++ ("Error: ".toList ++ rest) =
      linePart other ++ ("Error: ".toList ++ later)) : line = other ∧ rest = later := by
  cases line with
  | none =>
      cases other with
      | none => exact ⟨rfl, List.append_cancel_left same⟩
      | some other => cases List.head_eq_of_cons_eq same
  | some line =>
      cases other with
      | none => cases List.head_eq_of_cons_eq same
      | some other =>
          have opened : "[line ".toList ++
                (Nat.toDigits 10 line ++ ']' :: (" Error: ".toList ++ rest)) =
              "[line ".toList ++
                (Nat.toDigits 10 other ++ ']' :: (" Error: ".toList ++ later)) := by
            simpa [linePart] using same
          have bracketed := List.append_cancel_left opened
          obtain ⟨digits, tail⟩ :=
            append_cons_inj (notMem_toDigits rfl line) (notMem_toDigits rfl other) bracketed
          have numbers : line = other := by
            simpa using congrArg (Nat.ofDigitChars 10 · 0) digits
          exact ⟨congrArg some numbers, List.append_cancel_left tail⟩

/-- The file of a diagnostic is told by what stands behind its fault. -/
theorem filePart_inj {file other : Option String} (same : filePart file = filePart other) :
    file = other := by
  cases file with
  | none =>
      cases other with
      | none => rfl
      | some other => cases same
  | some file =>
      cases other with
      | none => cases same
      | some other => exact congrArg some (String.toList_inj.mp (List.append_cancel_left same))

end Diagnostic

namespace Fault

/-- The words for a stray character, with the character escaped between quotation marks. -/
theorem toList_message_unexpected (c : Char) :
    (unexpectedCharacter c).message.toList =
      "Unexpected '".toList ++ (Text.escape ['\'', '"'] c ++ "' character.".toList) := by
  simp [message, Text.escapeChar]

/-- The message of a fault of the text tells the fault and where the message ends. -/
theorem message_append_inj {fault other : Fault} (lexical : fault.isLexical = true)
    (other_lexical : other.isLexical = true) {rest later : List Char}
    (same : fault.message.toList ++ rest = other.message.toList ++ later) :
    fault = other ∧ rest = later := by
  have apart : ∀ mark ∈ ['\'', '"'], mark ∉ Text.formLetters := by
    simp [Text.formLetters]
  cases fault with
  | unexpectedCharacter c =>
      cases other with
      | unexpectedCharacter d =>
          rw [toList_message_unexpected, toList_message_unexpected] at same
          simp only [List.append_assoc] at same
          obtain ⟨characters, tails⟩ :=
            Text.escape_append_inj apart (List.append_cancel_left same)
          exact ⟨congrArg unexpectedCharacter characters, List.append_cancel_left tails⟩
      | unterminatedString =>
          rw [toList_message_unexpected] at same
          cases same
      | unreadable error => cases other_lexical
  | unterminatedString =>
      cases other with
      | unexpectedCharacter d =>
          rw [toList_message_unexpected] at same
          cases same
      | unterminatedString => exact ⟨rfl, List.append_cancel_left same⟩
      | unreadable error => cases other_lexical
  | unreadable error => cases lexical

/-- The words of a lexical fault are on one line. -/
theorem newline_notMem_message {fault : Fault} (lexical : fault.isLexical = true) :
    '\n' ∉ fault.message.toList := by
  cases fault with
  | unexpectedCharacter c =>
      rw [toList_message_unexpected, List.mem_append, List.mem_append, not_or, not_or]
      exact ⟨by decide, Text.newline_notMem_escape c, by decide⟩
  | unterminatedString => decide
  | unreadable error => cases lexical

end Fault

/-! ## Whole texts -/

namespace Diagnostic

/-- A lexical diagnostic is told by its text. -/
theorem eq_of_text {diagnostic other : Diagnostic} (lexical : diagnostic.isLexical = true)
    (other_lexical : other.isLexical = true) (same : diagnostic.text = other.text) :
    diagnostic = other := by
  have texts := congrArg String.toList same
  rw [toList_text, toList_text] at texts
  obtain ⟨lines, behind⟩ := linePart_append_inj texts
  obtain ⟨faults, files⟩ := Fault.message_append_inj lexical other_lexical behind
  obtain ⟨fault, line, file⟩ := diagnostic
  obtain ⟨other_fault, other_line, other_file⟩ := other
  obtain rfl : fault = other_fault := faults
  obtain rfl : line = other_line := lines
  obtain rfl : file = other_file := filePart_inj files
  rfl

/-- The text of a lexical diagnostic is more than a line only if its file's name is. -/
theorem newline_mem_text_iff {diagnostic : Diagnostic} (lexical : diagnostic.isLexical = true) :
    '\n' ∈ diagnostic.text.toList ↔ ∃ file ∈ diagnostic.file, '\n' ∈ file.toList := by
  have line : '\n' ∉ linePart diagnostic.line := by
    cases diagnostic.line with
    | none => exact List.not_mem_nil
    | some line =>
        have digits : '\n' ∉ Nat.toDigits 10 line := notMem_toDigits rfl line
        simp [linePart, digits]
  have message := Fault.newline_notMem_message lexical
  have file : '\n' ∈ filePart diagnostic.file ↔ ∃ file ∈ diagnostic.file, '\n' ∈ file.toList := by
    cases diagnostic.file <;> simp [filePart]
  rw [toList_text, ← file]
  simp [line, message]

end Diagnostic

/-- What is wrong in a source is a lexical fault. -/
theorem Event.isLexical_of_diagnostic? {event : Event} {diagnostic : Diagnostic}
    (found : event.diagnostic? = some diagnostic) : diagnostic.isLexical = true := by
  cases event <;> cases found <;> rfl

/-- The diagnostics that a scan collects are lexical. -/
theorem isLexical_of_mem_scanWith {source : String} {diagnostic : Diagnostic}
    (found : diagnostic ∈ (scanWith .collecting [] source).sink) :
    diagnostic.isLexical = true := by
  rw [sink_scanWith_collecting] at found
  obtain ⟨event, -, made⟩ := List.mem_filterMap.mp found
  exact Event.isLexical_of_diagnostic? made

/-- A reporter counts every diagnostic that it is told of. -/
theorem Reporter.errors_told (reporter : Reporter) (diagnostics : List Diagnostic) :
    (Reporter.sink.told reporter diagnostics).errors = reporter.errors + diagnostics.length := by
  induction diagnostics generalizing reporter with
  | nil => rfl
  | cons diagnostic rest ih =>
      have counted : (Reporter.sink.told reporter (diagnostic :: rest)).errors =
          reporter.errors + 1 + rest.length := ih (Reporter.sink.report diagnostic reporter).1
      rw [counted, List.length_cons]
      omega

/-- A diagnostic of a scan is printed on a single line if the name of the reporter's file is one. -/
theorem newline_notMem_text_placed {reporter : Reporter} {source : String} {diagnostic : Diagnostic}
    (single : ∀ file ∈ reporter.file, '\n' ∉ file.toList)
    (found : diagnostic ∈ (scanWith .collecting [] source).sink) :
    '\n' ∉ (reporter.placed diagnostic).text.toList := by
  have lexical : diagnostic.isLexical = true := isLexical_of_mem_scanWith found
  have placed : (reporter.placed diagnostic).isLexical = true := by
    rw [Reporter.placed_eq]
    exact lexical
  have file : (reporter.placed diagnostic).file = reporter.file := by
    rw [Reporter.placed_eq, file_of_mem_scanWith found]
    exact Option.none_or
  rw [Diagnostic.newline_mem_text_iff placed, file]
  rintro ⟨name, own, newline⟩
  exact single name own newline

/-- The text of a diagnostic that is a fault of the source's text tells the diagnostic, and it is a
single line unless its file's name is more than one. So if the name of a reporter's file, where it
has one, is a single line, a scan writes a line for each diagnostic that the reporter counts, and
beside them only a logger writes. -/
theorem Diagnostic.eq_of_text_and_lines :
    (∀ diagnostic other : Diagnostic, diagnostic.isLexical = true → other.isLexical = true →
        diagnostic.text = other.text → diagnostic = other) ∧
      (∀ diagnostic : Diagnostic, diagnostic.isLexical = true →
        ('\n' ∈ diagnostic.text.toList ↔ ∃ file ∈ diagnostic.file, '\n' ∈ file.toList)) ∧
      ∀ (reporter : Reporter) (source : String),
        (∀ file ∈ reporter.file, '\n' ∉ file.toList) →
        let scan := scanWith Reporter.sink reporter source
        let lines := (scanWith .collecting [] source).sink.map fun diagnostic =>
          (reporter.placed diagnostic).text
        (∀ line ∈ lines, '\n' ∉ line.toList) ∧
          scan.sink.errors = reporter.errors + lines.length ∧
          Reporter.printed scan.emissions = String.join (lines.map (· ++ "\n")) ∧
          ∀ logging, (Emission.prints logging scan.emissions).filter Print.isSaid =
            lines.map fun line => .said (line ++ "\n") := by
  refine ⟨fun _ _ => eq_of_text, fun _ => newline_mem_text_iff, ?_⟩
  intro reporter source single scan lines
  have written : scan.emissions.filterMap Emission.err? = lines.map (· ++ "\n") := by
    rw [Reporter.errs_scanWith, List.map_map]
    apply List.map_congr_left
    intro diagnostic found
    exact congrArg (fun placed : Diagnostic => placed.text ++ "\n")
      (Reporter.placed_eq reporter diagnostic).symm
  refine ⟨?_, ?_, ?_, ?_⟩
  · intro line member
    obtain ⟨diagnostic, found, rfl⟩ := List.mem_map.mp member
    exact newline_notMem_text_placed single found
  · rw [Sink.sink_scanWith, Reporter.errors_told, List.length_map]
  · rw [Reporter.printed_eq, written]
  · intro logging
    rw [Emission.filter_isSaid_prints, written, List.map_map]
    rfl

/-- A diagnostic in no file and one in a file without a name, and a scan with a carriage return and
an open string. -/
theorem Diagnostic.eq_of_text_and_lines_at_carriage_return :
    let unplaced : Diagnostic := { fault := .unexpectedCharacter '\r' }
    let stray : Diagnostic := ⟨.unexpectedCharacter '\r', some 1, none⟩
    let scan := scanWith Reporter.sink { file := some "a.lox" } "\r\n\"\n("
    (unplaced.onLine 1 = stray ∧ stray.text ≠ (stray.inFile "").text ∧ '\n' ∉ stray.text.toList) ∧
      scan.sink.errors = 2 ∧
      Reporter.printed scan.emissions =
        "[line 1] Error: Unexpected '\\r' character. in a.lox\n" ++
          "[line 3] Error: Unterminated string. in a.lox\n" := by
  intro unplaced stray scan
  obtain ⟨injective, single, written⟩ := Diagnostic.eq_of_text_and_lines
  have named : ∀ file ∈ some "a.lox", '\n' ∉ file.toList := by
    rintro file ⟨⟩
    decide
  obtain ⟨-, errors, printed, -⟩ := written { file := some "a.lox" } "\r\n\"\n(" named
  refine ⟨⟨injective (unplaced.onLine 1) stray rfl rfl rfl, ?_, ?_⟩, ?_, ?_⟩
  · intro same
    have files := congrArg Diagnostic.file (injective stray (stray.inFile "") rfl rfl same)
    cases files
  · rw [single stray rfl]
    rintro ⟨file, ⟨⟩, -⟩
  · exact errors.trans (by decide +kernel)
  · exact printed.trans (by decide +kernel)

end LoxLexer
