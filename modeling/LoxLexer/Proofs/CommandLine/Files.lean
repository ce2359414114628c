import LoxLexer.CommandLine.Program
import LoxLexer.File.Directory
import LoxLexer.Proofs.Scan.Placed
import LoxLexer.Proofs.Sink.Reporter

/-! # Runs over files

A run over files is one run after the other, each over a single file: nothing is carried over but
the status, which is that of the last file with a status other than zero (`run_files`). What a run
shows of one file, and its status, depend on the text that the file holds, if it holds one
(`Outcome.IsOfFile`). -/

namespace LoxLexer.CommandLine

/-- The options ask for a scan, of files or at a prompt. -/
structure Options.IsScan (options : Options) : Prop where
  no_help : options.has .help = false
  no_keywords : options.has .keywords = false

/-- The command line asks for a scan of the files, or at a prompt if there are none, by a run that
is quiet or not. -/
def AsksToScan (arguments : List String) (quiet : Bool) (files : List String) : Prop :=
  ∃ options, Options.ofArguments arguments = .ok options ∧ options.IsScan ∧
    options.has .quiet = quiet ∧ options.files = files

/-- What a run does that is asked to scan. -/
def scanning (quiet : Bool) (files : List String) (read : FileReader) (input : Input)
    (saved : Except FileError Unit) : Outcome :=
  match files with
  | [] => { emissions := prompt quiet read input saved }
  | paths => scanFiles quiet read paths

/-- A command line that asks for a scan has the scan made. -/
theorem AsksToScan.run_eq {arguments files : List String} {quiet : Bool}
    (asks : AsksToScan arguments quiet files) (read : FileReader) (input : Input)
    (saved : Except FileError Unit) :
    run arguments read input saved = scanning quiet files read input saved := by
  obtain ⟨options, understood, scan, rfl, rfl⟩ := asks
  rw [run, understood]
  change runOptions options read input saved = _
  rw [runOptions, scan.no_help, scan.no_keywords]
  rfl

/-- A scan of some files is that of the files, one by one. -/
theorem scanning_of_ne_nil {files : List String} (some_files : files ≠ []) (quiet : Bool)
    (read : FileReader) (input : Input) (saved : Except FileError Unit) :
    scanning quiet files read input saved = scanFiles quiet read files := by
  obtain ⟨path, paths, rfl⟩ := List.exists_cons_of_ne_nil some_files
  rfl

/-- The command line for one file and no other. Behind two dashes every argument is a file. -/
def alone (quiet : Bool) (path : String) : List String :=
  (if quiet then ["--quiet"] else []) ++ ["--", path]

/-- The content of the file is the text in UTF-8. -/
def HoldsText (read : FileReader) (path text : String) : Prop :=
  ∃ content, read path = .ok content ∧ String.fromUTF8? content = some text

/-- The file holds no text for the given reason: it cannot be read, or its content is not UTF-8. -/
def LacksText (read : FileReader) (path : String) (error : FileError) : Prop :=
  read path = .error error ∨
    error = .notText ∧ ∃ content, read path = .ok content ∧ String.fromUTF8? content = none

namespace Outcome

/-- What a run shows of one file, and how it ends. -/
structure IsOfFile (outcome : Outcome) (quiet : Bool) (read : FileReader) (path : String) :
    Prop where
  status_input : outcome.status = 66 ↔ ∃ error, LacksText read path error
  status_data : outcome.status = 65 ↔
    ∃ text, HoldsText read path text ∧ (scanWith .collecting [] text).sink ≠ []
  status_zero : outcome.status = 0 ↔
    ∃ text, HoldsText read path text ∧ (scanWith .collecting [] text).sink = []
  /-- Without a text the reason is printed, and nothing on the standard output. -/
  lacking : ∀ error, LacksText read path error →
    outcome.outText = "" ∧
      outcome.emissions.filterMap Emission.err? =
        ["Error: " ++ error.message ++ " in " ++ path ++ "\n"]
  /-- The diagnostics of the text are printed in the file, and its tokens, if there are any to be
  printed, whatever the diagnostics are. -/
  holding : ∀ text, HoldsText read path text →
    let scan := scanWith .collecting [] text
    (∃ front ending, scan.tokens = front ++ [.eof ending]) ∧
      outcome.outText =
        (if quiet then "" else String.join (scan.tokens.map fun token => token.text ++ "\n")) ∧
      outcome.emissions.filterMap Emission.err? =
        scan.sink.map fun diagnostic => (diagnostic.inFile path).text ++ "\n"

/-! ## One outcome after the other -/

/-- Nothing before an outcome changes it. -/
theorem andThen_of_empty (outcome : Outcome) : andThen {} outcome = outcome := by
  obtain ⟨status, emissions⟩ := outcome
  by_cases zero : status = 0 <;> simp [andThen, zero]

/-- The last status that is not zero, or zero if all are. -/
def lastFailure (statuses : List Nat) : Nat :=
  (statuses.filter (· ≠ 0)).getLast?.getD 0

/-- There is no failure among statuses if and only if all are zero. -/
theorem lastFailure_eq_zero_iff (statuses : List Nat) :
    lastFailure statuses = 0 ↔ ∀ status ∈ statuses, status = 0 := by
  rw [lastFailure]
  cases last : (statuses.filter (· ≠ 0)).getLast? with
  | none =>
      have all_zero := List.filter_eq_nil_iff.mp (List.getLast?_eq_none_iff.mp last)
      simpa using all_zero
  | some status =>
      obtain ⟨member, failure⟩ := List.mem_filter.mp (List.mem_of_getLast? last)
      have not_zero : status ≠ 0 := of_decide_eq_true failure
      exact ⟨fun zero => (not_zero zero).elim, fun zero => zero status member⟩

/-- Outcomes one after the other end with the last failure, and show what each of them shows. -/
theorem foldl_andThen (first : Outcome) (outcomes : List Outcome) :
    outcomes.foldl andThen first =
      ⟨((outcomes.map status).filter (· ≠ 0)).getLast?.getD first.status,
        first.emissions ++ outcomes.flatMap emissions⟩ := by
  induction outcomes generalizing first with
  | nil =>
      rw [List.flatMap_nil, List.append_nil]
      rfl
  | cons outcome rest ih =>
      rw [List.foldl_cons, ih, andThen, List.flatMap_cons, ← List.append_assoc, List.map_cons]
      by_cases zero : outcome.status = 0
      · simp [zero]
      · simp [zero, List.getLast?_cons]

end Outcome

variable {read : FileReader} {path : String}

/-- A text is read from a file if and only if the file holds it. -/
theorem readText_eq_ok_iff {text : String} :
    readText read path = .ok text ↔ HoldsText read path text := by
  unfold readText HoldsText
  cases read path with
  | error error => simp
  | ok content => cases found : String.fromUTF8? content <;> simp [found]

/-- Reading a text from a file fails for the reason for which the file holds none. -/
theorem readText_eq_error_iff {error : FileError} :
    readText read path = .error error ↔ LacksText read path error := by
  unfold readText LacksText
  cases read path with
  | error other => simp
  | ok content => cases found : String.fromUTF8? content <;> simp [found, eq_comm]

/-! ## One file -/

/-- The record that is logged before a file is read. -/
def reading (path : String) : Emission :=
  .log (.ofModule .info libraryPath ("read " ++ path))

/-- A file without a text is reported, in the log with all parts and in words. -/
theorem scanFile_of_error (quiet : Bool) {error : FileError}
    (failed : readText read path = .error error) :
    let diagnostic : Diagnostic := { fault := .unreadable error, file := some path }
    scanFile quiet read path =
      ⟨inputStatus, [reading path, .log (.ofModule .error programPath diagnostic.described),
        .errLine diagnostic.text]⟩ := by
  rw [scanFile, readSource, failed]
  rfl

/-- The words for a file without a text are the reason and the path. -/
theorem text_unreadable (error : FileError) (path : String) :
    ({ fault := .unreadable error, file := some path } : Diagnostic).text =
      "Error: " ++ error.message ++ " in " ++ path := by
  change "" ++ "Error: " ++ error.message ++ (" in " ++ path) = _
  rw [String.empty_append, ← String.append_assoc]

/-- A file that holds a text has its text scanned and its tokens listed. -/
theorem scanFile_of_ok (quiet : Bool) {text : String} (held : readText read path = .ok text) :
    let scan := scanWith Reporter.sink { file := some path } text
    scanFile quiet read path =
      ⟨if scan.sink.hadError then dataStatus else 0,
        reading path :: scan.emissions ++ listing quiet scan.tokens⟩ := by
  rw [scanFile, readSource, held]
  rfl

/-- The reporter of a scan has had an error if and only if a scan collects one. -/
theorem hadError_scanWith (file : Option String) (text : String) :
    (scanWith Reporter.sink { file } text).sink.hadError = true ↔
      (scanWith .collecting [] text).sink ≠ [] := by
  have view := Reporter.told_counting file [] (scanWith .collecting [] text).sink
  rw [Sink.sink_scanWith]
  change (Reporter.sink.told (Reporter.counting file []) _).hadError = true ↔ _
  rw [view]
  change (List.length _ != 0) = true ↔ _
  rw [bne_iff_ne, ne_eq, List.length_eq_zero_iff, List.nil_append]

/-- A listing puts a line for each token on the standard output, if it is not quiet. -/
theorem outs_listing (quiet : Bool) (tokens : List Token) :
    (listing quiet tokens).filterMap Emission.out? =
      if quiet then [] else tokens.map fun token => token.text ++ "\n" := by
  cases quiet with
  | true => rfl
  | false =>
      change (tokens.map _).filterMap Emission.out? = tokens.map _
      rw [List.filterMap_map, ← List.filterMap_eq_map]
      rfl

theorem errs_listing (quiet : Bool) (tokens : List Token) :
    (listing quiet tokens).filterMap Emission.err? = [] := by
  cases quiet with
  | true => rfl
  | false =>
      rw [List.filterMap_eq_nil_iff]
      intro emission member
      obtain ⟨token, -, rfl⟩ := List.mem_map.mp member
      rfl

/-- On the standard output a file shows its tokens, if the run is not quiet. -/
theorem outs_scanFile_of_ok (quiet : Bool) {text : String} (held : readText read path = .ok text) :
    (scanFile quiet read path).emissions.filterMap Emission.out? =
      if quiet then []
      else (scanWith .collecting [] text).tokens.map fun token => token.text ++ "\n" := by
  rw [scanFile_of_ok quiet held]
  change ((scanWith Reporter.sink _ text).emissions ++ listing quiet _).filterMap Emission.out? = _
  rw [List.filterMap_append, Reporter.outs_scanWith, outs_listing, List.nil_append,
    tokens_scanWith, tokens_scanWith]

/-- The diagnostics of a file are printed in the file. -/
theorem errs_scanFile_of_ok (quiet : Bool) {text : String} (held : readText read path = .ok text) :
    (scanFile quiet read path).emissions.filterMap Emission.err? =
      (scanWith .collecting [] text).sink.map fun diagnostic =>
        (diagnostic.inFile path).text ++ "\n" := by
  rw [scanFile_of_ok quiet held]
  change ((scanWith Reporter.sink _ text).emissions ++ listing quiet _).filterMap Emission.err? = _
  rw [List.filterMap_append, Reporter.errs_scanWith, errs_listing, List.append_nil]
  apply List.map_congr_left
  intro diagnostic collected
  rw [Reporter.line, file_of_mem_scanWith collected]
  rfl

theorem exists_eof_tokens_scanWith (text : String) :
    ∃ front ending, (scanWith .collecting [] text).tokens = front ++ [.eof ending] :=
  ⟨_, _, tokens_scanWith_eq_placed .collecting [] text⟩

/-- Scanning a file shows what there is to show of it, and ends as it should. -/
theorem isOfFile_scanFile (quiet : Bool) (read : FileReader) (path : String) :
    (scanFile quiet read path).IsOfFile quiet read path := by
  cases held : readText read path with
  | error error =>
      have lacks := readText_eq_error_iff.mp held
      have shown := scanFile_of_error quiet held
      constructor
      all_goals simp only [← readText_eq_error_iff, ← readText_eq_ok_iff, held, shown]
      · simp [inputStatus]
      · simp [inputStatus]
      · simp [inputStatus]
      · intro other same
        cases same
        refine ⟨rfl, ?_⟩
        rw [← text_unreadable]
        rfl
      · nofun
  | ok text =>
      have status := congrArg Outcome.status (scanFile_of_ok quiet held)
      simp only [hadError_scanWith, dataStatus] at status
      constructor
      all_goals simp only [← readText_eq_error_iff, ← readText_eq_ok_iff, held, status]
      · split <;> simp
      · split <;> simp_all
      · split <;> simp_all
      · nofun
      · intro other same
        cases same
        refine ⟨exists_eof_tokens_scanWith text, ?_, errs_scanFile_of_ok quiet held⟩
        rw [Outcome.outText, Emission.join_map_outText, outs_scanFile_of_ok quiet held]
        split <;> rfl

/-! ## One file after the other -/

/-- Scanning files ends with the last failure of theirs, and shows what each of them shows. -/
theorem scanFiles_eq (quiet : Bool) (read : FileReader) (paths : List String) :
    scanFiles quiet read paths =
      ⟨Outcome.lastFailure (paths.map fun path => (scanFile quiet read path).status),
        paths.flatMap fun path => (scanFile quiet read path).emissions⟩ := by
  rw [scanFiles, Outcome.foldl_andThen, List.map_map, List.flatMap_map]
  rfl

/-- The command line for one file asks for a scan of it. -/
theorem asksToScan_alone (quiet : Bool) (path : String) :
    AsksToScan (alone quiet path) quiet [path] := by
  cases quiet with
  | true => exact ⟨⟨[.quiet], [path]⟩, rfl, ⟨rfl, rfl⟩, rfl, rfl⟩
  | false => exact ⟨⟨[], [path]⟩, rfl, ⟨rfl, rfl⟩, rfl, rfl⟩

/-- A run over one file is a scan of it. -/
theorem run_alone (quiet : Bool) (read : FileReader) (path : String) (input : Input)
    (saved : Except FileError Unit) :
    run (alone quiet path) read input saved = scanFile quiet read path := by
  rw [(asksToScan_alone quiet path).run_eq]
  exact Outcome.andThen_of_empty _

/-- Files are scanned as by runs over each of them alone: both outputs, whatever is logged, are
those of these runs one after the other, and the status is the last of theirs that is not zero. A
run over one file ends as the text of the file makes it end, so that all is well with a run over
files if and only if each of them holds a text without faults. -/
theorem run_files {arguments files : List String} {quiet : Bool}
    (asks : AsksToScan arguments quiet files) (some_files : files ≠ []) (read : FileReader)
    (input : Input) (saved : Except FileError Unit) (directive : Option String)
    (terminal : Bool) :
    let logging := Log.Logging.init {} directive terminal
    let whole := run arguments read input saved
    let single (path : String) := run (alone quiet path) read input saved
    whole.outText = String.join (files.map fun path => (single path).outText) ∧
      whole.errText logging = String.join (files.map fun path => (single path).errText logging) ∧
      whole.status = Outcome.lastFailure (files.map fun path => (single path).status) ∧
      (∀ path, (single path).IsOfFile quiet read path) ∧
      (whole.status = 0 ↔ ∀ path ∈ files,
        ∃ text, HoldsText read path text ∧ (scanWith .collecting [] text).sink = []) := by
  intro logging whole single
  have alone_eq : single = scanFile quiet read := by
    funext path
    exact run_alone quiet read path input saved
  have whole_eq : whole = scanFiles quiet read files :=
    (asks.run_eq read input saved).trans (scanning_of_ne_nil some_files quiet read input saved)
  rw [alone_eq, whole_eq, scanFiles_eq]
  refine ⟨?_, ?_, rfl, isOfFile_scanFile quiet read, ?_⟩
  · rw [Outcome.outText, List.map_flatMap, Emission.join_flatMap]
    rfl
  · rw [Outcome.errText, List.map_flatMap, Emission.join_flatMap]
    rfl
  · rw [Outcome.lastFailure_eq_zero_iff]
    simp only [List.forall_mem_map, (isOfFile_scanFile quiet read _).status_zero]

/-- A file with a fault, one that is missing, and one without faults. -/
theorem run_files_faulty_missing_good :
    let directory : Directory :=
      ⟨[(["faulty"], .file "@".toUTF8), (["good"], .file "(".toUTF8)]⟩
    let outcome := run ["faulty", "missing", "good"] directory.read { text := "" }
    outcome.status = 66 ∧ outcome.outText = "EOF  null\nLEFT_PAREN ( null\nEOF  null\n" := by
  intro directory outcome
  have asks : AsksToScan ["faulty", "missing", "good"] false ["faulty", "missing", "good"] :=
    ⟨{ files := ["faulty", "missing", "good"] }, rfl, ⟨rfl, rfl⟩, rfl, rfl⟩
  obtain ⟨out, -, status, -⟩ :=
    run_files asks (List.cons_ne_nil _ _) directory.read { text := "" } (.ok ()) (some "trace")
      false
  exact ⟨status.trans (by decide +kernel), out.trans (by decide +kernel)⟩

end LoxLexer.CommandLine
