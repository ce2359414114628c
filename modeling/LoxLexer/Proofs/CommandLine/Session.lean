import Mathlib.Data.List.Basic
import LoxLexer.Proofs.CommandLine.Console

/-! # Sessions

A session is a process from its start to its end: it starts its logging with a directive and then
runs the program on its console. Nothing of it but the lines of the log depends on the directive,
and nothing but the lines that list tokens on whether the run is quiet (`session_undisturbed`). -/

namespace LoxLexer.CommandLine

/-- What a process comes to: its status, and what stands on each output, piece by piece. -/
structure Session where
  status : Nat
  out : List String
  err : List Print

/-- The session of a command line in a process with this directive, if there is one, and a standard
error that may be a terminal. Every record is printed or not as it is emitted. -/
def session (directive : Option String) (terminal : Bool) (arguments : List String)
    (read : FileReader) (input : Input)
    (saved : Except FileError Unit := Prompt.saving read input) : Session :=
  let process : StateM Console Nat := do
    Console.startLogging directive terminal
    runOn arguments read input saved
  let ended := process.run {}
  { status := ended.1, out := ended.2.out, err := ended.2.err }

/-- What a session comes to can be read off what a run shows: the texts for either output, and the
records that its logging prints. -/
theorem session_eq (directive : Option String) (terminal : Bool) (arguments : List String)
    (read : FileReader) (input : Input) (saved : Except FileError Unit) :
    let outcome := run arguments read input saved
    session directive terminal arguments read input saved =
      ⟨outcome.status, outcome.emissions.filterMap Emission.out?,
        Emission.prints (Log.Logging.init {} directive terminal) outcome.emissions⟩ := by
  intro outcome
  let started : Console := { logging := Log.Logging.init {} directive terminal }
  have process : (Console.startLogging directive terminal >>= fun _ =>
      runOn arguments read input saved).run {} =
        (outcome.status, outcome.emissions.foldl Console.put started) :=
    runOn_shows arguments read input saved started
  rw [session, process, Console.foldl_put]
  rfl

/-- The line of a token in a listing. -/
def tokenLine (token : Token) : String :=
  token.text ++ "\n"

/-- The lines of the tokens of a text. -/
def tokenLines (text : String) : List String :=
  (scanWith .collecting [] text).tokens.map tokenLine

/-- The texts that a run scans: those of the files that hold one, or the lines of a prompt. -/
def scannedTexts (paths : List String) (read : FileReader) (input : Input) : List String :=
  match paths with
  | [] => input.lines
  | paths => paths.filterMap fun path => (readText read path).toOption

/-- What a run shows behind the lines of tokens: a prompt ends with a word of its own. -/
def parting (paths : List String) (input : Input) : List String :=
  if paths = [] ∧ input.broken = false then ["bye!\n"] else []

/-- There is a parting word or none. -/
theorem parting_cases (paths : List String) (input : Input) :
    parting paths input = ["bye!\n"] ∨ parting paths input = [] := by
  by_cases parts : paths = [] ∧ input.broken = false
  · exact .inl (if_pos parts)
  · exact .inr (if_neg parts)

/-! ## Lines of tokens -/

/-- The characters of a line: a kind, a lexeme and a value, the first two with a blank behind. -/
def lineOf (content : Token.Content) : List Char :=
  let value := content.literal.elim "null" Literal.text
  content.kind.name.toList ++ ' ' :: content.lexeme.toList ++ ' ' :: value.toList ++ ['\n']

/-- The line of a token is the line of what it says. -/
theorem toList_tokenLine (token : Token) : (tokenLine token).toList = lineOf token.content := by
  simp only [tokenLine, Token.text, String.toList_append, List.append_assoc, lineOf]
  rfl

/-- The line of a token has a blank in it. -/
theorem blank_mem_lineOf (content : Token.Content) : ' ' ∈ lineOf content := by
  simp [lineOf]

/-! ## The standard output -/

/-- A file puts the lines of its tokens on the standard output, if it holds a text and the run is
not quiet. -/
theorem outs_scanFile (quiet : Bool) (read : FileReader) (path : String) :
    (scanFile quiet read path).emissions.filterMap Emission.out? =
      if quiet then [] else (readText read path).toOption.toList.flatMap tokenLines := by
  cases held : readText read path with
  | error error =>
      rw [scanFile_of_error quiet held]
      cases quiet <;> rfl
  | ok text =>
      rw [outs_scanFile_of_ok quiet held]
      change _ = if quiet then [] else [text].flatMap tokenLines
      rw [List.flatMap_singleton]
      rfl

/-- Files put the lines of their tokens on the standard output, one file after the other. -/
theorem outs_scanFiles (quiet : Bool) (read : FileReader) (paths : List String) :
    (scanFiles quiet read paths).emissions.filterMap Emission.out? =
      if quiet then []
      else (paths.filterMap fun path => (readText read path).toOption).flatMap tokenLines := by
  rw [scanFiles_eq, List.filterMap_flatMap]
  simp only [outs_scanFile]
  cases quiet with
  | true => exact List.flatMap_eq_nil_iff.mpr fun path _ => rfl
  | false => rw [List.filterMap_eq_flatMap_toList, List.flatMap_assoc]; rfl

/-- A line is answered by its scan and its listing, and then the other lines are answered. -/
theorem answer_cons (quiet : Bool) (reporter : Reporter) (line : String) (rest : List String) :
    let scan := scanWith Reporter.sink reporter line
    Prompt.answer quiet reporter (line :: rest) =
      Prompt.asked ::
        (scan.emissions ++ listing quiet scan.tokens ++
          Prompt.answer quiet scan.sink.reset rest) :=
  rfl

/-- Lines are answered by the lines of their tokens on the standard output. -/
theorem outs_answer (quiet : Bool) (reporter : Reporter) (lines : List String) :
    (Prompt.answer quiet reporter lines).filterMap Emission.out? =
      if quiet then [] else lines.flatMap tokenLines := by
  induction lines generalizing reporter with
  | nil => cases quiet <;> rfl
  | cons line rest ih =>
      rw [answer_cons, List.filterMap_cons_none rfl, List.filterMap_append, List.filterMap_append,
        Reporter.outs_scanWith, outs_listing, ih, tokens_scanWith, ← tokens_scanWith .collecting []]
      cases quiet with
      | true => rfl
      | false => rfl

/-- Reading the remembered lines only logs. -/
theorem filterMap_loadHistory {text? : Emission → Option String}
    (silent : ∀ record, text? (.log record) = none) (read : FileReader) :
    (Prompt.loadHistory read).filterMap text? = [] := by
  have escaped (lines : List String) :
      (lines.map Prompt.badlyEscaped).filterMap text? = [] := by
    rw [List.filterMap_map]
    exact List.filterMap_eq_nil_iff.mpr fun line _ => silent _
  have unread : [Prompt.noHistory].filterMap text? = [] :=
    List.filterMap_eq_nil_iff.mpr (List.forall_mem_singleton.mpr (silent _))
  unfold Prompt.loadHistory
  split
  · exact unread
  · rw [List.filterMap_append, escaped]
    split
    · exact unread
    · rfl

/-- Whatever comes of saving the history, nothing of it goes to the standard output. -/
theorem outs_storeHistory (saved : Except FileError Unit) :
    (Prompt.storeHistory saved).filterMap Emission.out? = [] := by
  cases saved <;> rfl

/-- On the standard output a prompt shows the tokens of its lines, and then it parts. -/
theorem outs_prompt (quiet : Bool) (read : FileReader) (input : Input)
    (saved : Except FileError Unit) :
    (prompt quiet read input saved).filterMap Emission.out? =
      (if quiet then [] else input.lines.flatMap tokenLines) ++ parting [] input := by
  have farewell : (Prompt.farewell input).filterMap Emission.out? = parting [] input := by
    unfold Prompt.farewell parting
    cases input.broken <;> rfl
  rw [prompt, List.filterMap_append, List.filterMap_append, List.filterMap_append,
    filterMap_loadHistory fun _ => rfl, outs_answer, farewell, outs_storeHistory, List.append_nil,
    List.nil_append]

/-- The standard output of a scan: the tokens of the texts in order, unless the run is quiet, and
then the parting word. -/
theorem outs_scanning (quiet : Bool) (files : List String) (read : FileReader) (input : Input)
    (saved : Except FileError Unit) :
    (scanning quiet files read input saved).emissions.filterMap Emission.out? =
      (if quiet then [] else (scannedTexts files read input).flatMap tokenLines) ++
        parting files input := by
  cases files with
  | nil => exact outs_prompt quiet read input saved
  | cons path paths => exact (outs_scanFiles quiet read _).trans (List.append_nil _).symm

/-! ## The standard error and the status -/

theorem prints_listing (logging : Log.Logging) (quiet : Bool) (tokens : List Token) :
    Emission.prints logging (listing quiet tokens) = [] := by
  cases quiet with
  | true => rfl
  | false =>
      change (tokens.map _).filterMap _ = []
      rw [List.filterMap_map]
      exact List.filterMap_eq_nil_iff.mpr fun token _ => rfl

/-- Quiet or not, lines are answered alike on the standard error. -/
theorem prints_answer (logging : Log.Logging) (quiet : Bool) (reporter : Reporter)
    (lines : List String) :
    Emission.prints logging (Prompt.answer quiet reporter lines) =
      Emission.prints logging (Prompt.answer true reporter lines) := by
  induction lines generalizing reporter with
  | nil => rfl
  | cons line rest ih =>
      simp only [answer_cons, Emission.prints_cons, Emission.prints_append, prints_listing, ih]

/-- Quiet or not, a scan of a file prints the same on the standard error. -/
theorem prints_scanFile (logging : Log.Logging) (quiet : Bool) (read : FileReader)
    (path : String) :
    Emission.prints logging (scanFile quiet read path).emissions =
      Emission.prints logging (scanFile true read path).emissions := by
  cases held : readText read path with
  | error error => rw [scanFile_of_error quiet held, scanFile_of_error true held]
  | ok text =>
      rw [scanFile_of_ok quiet held, scanFile_of_ok true held]
      simp only [Emission.prints_append, prints_listing]

theorem status_scanFile (quiet : Bool) (read : FileReader) (path : String) :
    (scanFile quiet read path).status = (scanFile true read path).status := by
  cases held : readText read path with
  | error error => rw [scanFile_of_error quiet held, scanFile_of_error true held]
  | ok text => rw [scanFile_of_ok quiet held, scanFile_of_ok true held]

/-- Quiet or not, a scan of files ends with the same status. -/
theorem status_scanFiles (quiet : Bool) (read : FileReader) (paths : List String) :
    (scanFiles quiet read paths).status = (scanFiles true read paths).status := by
  simp only [scanFiles_eq, status_scanFile quiet]

/-- Quiet or not, a scan of files prints the same on the standard error. -/
theorem prints_scanFiles (logging : Log.Logging) (quiet : Bool) (read : FileReader)
    (paths : List String) :
    Emission.prints logging (scanFiles quiet read paths).emissions =
      Emission.prints logging (scanFiles true read paths).emissions := by
  simp only [scanFiles_eq, Emission.prints_flatMap, prints_scanFile logging quiet]

/-- Quiet or not, a prompt prints the same on the standard error. -/
theorem prints_prompt (logging : Log.Logging) (quiet : Bool) (read : FileReader) (input : Input)
    (saved : Except FileError Unit) :
    Emission.prints logging (prompt quiet read input saved) =
      Emission.prints logging (prompt true read input saved) := by
  simp only [prompt, Emission.prints_append, prints_answer logging quiet]

/-- Whether a run is quiet does not change the status it ends with. -/
theorem status_scanning (quiet : Bool) (files : List String) (read : FileReader) (input : Input)
    (saved : Except FileError Unit) :
    (scanning quiet files read input saved).status =
      (scanning true files read input saved).status := by
  cases files with
  | nil => rfl
  | cons path paths => exact status_scanFiles quiet read _

/-- Whether a run is quiet does not change what it prints on the standard error. -/
theorem prints_scanning (logging : Log.Logging) (quiet : Bool) (files : List String)
    (read : FileReader) (input : Input) (saved : Except FileError Unit) :
    Emission.prints logging (scanning quiet files read input saved).emissions =
      Emission.prints logging (scanning true files read input saved).emissions := by
  cases files with
  | nil => exact prints_prompt logging quiet read input saved
  | cons path paths => exact prints_scanFiles logging quiet read _

/-! ## Without the lines of tokens -/

/-- The second list is the first without its lines of tokens. -/
inductive WithoutTokens : List String → List String → Prop
  | nil : WithoutTokens [] []
  | token {loud quiet : List String} (token : Token) :
      WithoutTokens loud quiet → WithoutTokens (tokenLine token :: loud) quiet
  | other {loud quiet : List String} {text : String} (no_token : ∀ token, text ≠ tokenLine token) :
      WithoutTokens loud quiet → WithoutTokens (text :: loud) (text :: quiet)

/-- The lines of the tokens of texts can stand before what has its lines of tokens taken out. -/
theorem WithoutTokens.flatMap_tokenLines {loud quiet : List String}
    (later : WithoutTokens loud quiet) (texts : List String) :
    WithoutTokens (texts.flatMap tokenLines ++ loud) quiet := by
  have tokens (tokens : List Token) {loud : List String} (later : WithoutTokens loud quiet) :
      WithoutTokens (tokens.map tokenLine ++ loud) quiet := by
    induction tokens with
    | nil => exact later
    | cons first rest ih => exact .token first ih
  induction texts with
  | nil => exact later
  | cons text rest ih =>
      rw [List.flatMap_cons, List.append_assoc]
      exact tokens _ ih

/-- A line of a token has a blank behind the name of its kind, the parting word has none. -/
theorem WithoutTokens.parting (paths : List String) (input : Input) :
    WithoutTokens (parting paths input) (parting paths input) := by
  rcases parting_cases paths input with parted | parted
  · rw [parted]
    apply WithoutTokens.other _ .nil
    intro token same
    have blank := blank_mem_lineOf token.content
    rw [← toList_tokenLine, ← same] at blank
    exact absurd blank (by decide)
  · rw [parted]
    exact .nil

/-- Two command lines for a scan of the same files, or at a prompt, of which the second is quiet,
end with one status and print the same on the standard error. On the standard output the second
prints what the first does without the lines of tokens, which is nothing for files and the parting
word for a prompt whose input comes to its end. And whatever the command line, whose outputs are the
pieces of its session joined, another directive for the log changes neither the status nor the
standard output, and on the standard error only lines of the log: the texts there are those of any
other directive, and all that is there without one. -/
theorem session_undisturbed {arguments quiet_arguments files : List String}
    (asks : AsksToScan arguments false files) (quiet_asks : AsksToScan quiet_arguments true files)
    (read : FileReader) (input : Input) (saved : Except FileError Unit) (terminal : Bool) :
    (∀ directive,
      let loud := session directive terminal arguments read input saved
      let quiet := session directive terminal quiet_arguments read input saved
      quiet.status = loud.status ∧ quiet.err = loud.err ∧ WithoutTokens loud.out quiet.out ∧
        quiet.out = if files = [] ∧ input.broken = false then ["bye!\n"] else []) ∧
      ∀ (command : List String) (directive other : Option String),
        let outcome := run command read input saved
        let one := session directive terminal command read input saved
        let another := session other terminal command read input saved
        let silent := session none terminal command read input saved
        outcome.outText = String.join one.out ∧
          outcome.errText (Log.Logging.init {} directive terminal) =
            String.join (one.err.map Print.text) ∧
          one.status = another.status ∧ one.out = another.out ∧
          one.err.filter Print.isSaid = another.err.filter Print.isSaid ∧
          one.err.filter Print.isSaid = silent.err := by
  constructor
  · intro directive
    simp only [session_eq, asks.run_eq, quiet_asks.run_eq, outs_scanning, ↓reduceIte,
      Bool.false_eq_true]
    refine ⟨(status_scanning false files read input saved).symm,
      (prints_scanning _ false files read input saved).symm, ?_, rfl⟩
    exact (WithoutTokens.parting files input).flatMap_tokenLines _
  · intro command directive other
    simp only [session_eq, Emission.filter_isSaid_prints, true_and]
    exact ⟨Emission.join_map_outText _, Emission.join_map_errText _ _,
      (Emission.prints_of_no_logger _).symm⟩

/-- A prompt at which a line with a token and a line with a fault are entered. -/
theorem session_undisturbed_at_prompt :
    let read : FileReader := fun _ => .error (.system .noSuchFile)
    let input : Input := { text := "(\n@" }
    let loud := session (some "trace") false [] read input
    let quiet := session (some "trace") false ["-q"] read input
    loud.out = ["LEFT_PAREN ( null\n", "EOF  null\n", "EOF  null\n", "bye!\n"] ∧
      quiet.out = ["bye!\n"] ∧ quiet.err = loud.err ∧
      loud.err.filter Print.isSaid = [.said "[line 1] Error: Unexpected '@' character.\n"] := by
  intro read input loud quiet
  have asks : AsksToScan [] false [] := ⟨{}, rfl, ⟨rfl, rfl⟩, rfl, rfl⟩
  have quiet_asks : AsksToScan ["-q"] true [] := ⟨⟨[.quiet], []⟩, rfl, ⟨rfl, rfl⟩, rfl, rfl⟩
  obtain ⟨undisturbed, logged⟩ :=
    session_undisturbed asks quiet_asks read input (Prompt.saving read input) false
  obtain ⟨-, same, -, parted⟩ := undisturbed (some "trace")
  obtain ⟨-, -, -, -, -, silent⟩ := logged [] (some "trace") none
  refine ⟨by decide +kernel, parted, same, ?_⟩
  exact silent.trans (by decide +kernel)

end LoxLexer.CommandLine
