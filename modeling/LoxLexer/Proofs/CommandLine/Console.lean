import LoxLexer.Proofs.CommandLine.Files

/-! # Running on a console

A run can be made on a console: whatever the program has to show goes there at once, and whether a
record is printed is for the logging to say that the process has at that moment. The program is
written here in this way, loop by loop. Each part of it comes to the result that it has without a
console, and what it puts there one by one is the list of what it shows (`Console.Shows`), so that
the outputs of the whole run are that list sorted by output, with the records that its logging
prints (`runOn_shows`, `Console.foldl_put`). -/

namespace LoxLexer.CommandLine

/-- The outputs of a process, piece by piece, and its logging. -/
structure Console where
  logging : Log.Logging := {}
  out : List String := []
  err : List Print := []

namespace Console

/-- Puts an emission on the output that it is meant for; a record is printed if the logging has it
printed now. -/
def put (console : Console) : Emission → Console
  | .out text => { console with out := console.out ++ [text] }
  | .err text => { console with err := console.err ++ [.said text] }
  | .log record =>
    match console.logging.loggerOf? record with
    | none => console
    | some logger => { console with err := console.err ++ [.logged record logger.painted] }

/-- What is put on a console goes to either output in the order in which it is put there, and leaves
the logging as it is. -/
theorem foldl_put (console : Console) (emissions : List Emission) :
    emissions.foldl put console =
      ⟨console.logging, console.out ++ emissions.filterMap Emission.out?,
        console.err ++ Emission.prints console.logging emissions⟩ := by
  induction emissions generalizing console with
  | nil =>
      rw [List.foldl_nil, List.filterMap_nil, List.append_nil]
      exact congrArg (Console.mk _ _) (List.append_nil _).symm
  | cons emission rest ih =>
      rw [List.foldl_cons, ih, Emission.prints_cons]
      cases emission with
      | out text => simp [put, Emission.out?, Emission.print?]
      | err text => simp [put, Emission.out?, Emission.print?, List.filterMap_cons]
      | log record =>
          cases printed : console.logging.loggerOf? record with
          | none => simp [put, Emission.out?, Emission.print?, List.filterMap_cons, printed]
          | some logger => simp [put, Emission.out?, Emission.print?, List.filterMap_cons, printed]

variable {α β : Type}

/-- Shows something on the console. -/
def emit (emission : Emission) : StateM Console Unit :=
  modify (put · emission)

/-- Shows one thing after the other. -/
def emitAll (emissions : List Emission) : StateM Console Unit :=
  emissions.forM emit

/-- Starts the logging of the process as a directive says. -/
def startLogging (directive : Option String) (terminal : Bool) : StateM Console Unit :=
  modify fun console => { console with logging := console.logging.init directive terminal }

/-- On every console the program comes to this result, and puts these emissions there one by one. -/
def Shows (program : StateM Console α) (result : α) (emissions : List Emission) : Prop :=
  ∀ console, program.run console = (result, emissions.foldl put console)

namespace Shows

/-- Coming to a result shows nothing. -/
theorem pure (result : α) : Shows (Pure.pure result) result [] :=
  fun _ => rfl

/-- Showing something shows just that. -/
theorem emit (emission : Emission) : Shows (Console.emit emission) () [emission] :=
  fun _ => rfl

/-- What a program shows, and then what the next one does. -/
theorem bind {program : StateM Console α} {next : α → StateM Console β} {first : α} {second : β}
    {shown later : List Emission} (shows_first : Shows program first shown)
    (shows_second : Shows (next first) second later) :
    Shows (program >>= next) second (shown ++ later) := by
  intro console
  rw [StateT.run_bind, shows_first console, List.foldl_append]
  exact shows_second _

/-- What is made of a result at the end shows nothing. -/
theorem andReturn {program : StateM Console α} {result : α} {shown : List Emission}
    (shows_program : Shows program result shown) (make : α → β) :
    Shows (program >>= fun result => Pure.pure (make result)) (make result) shown := by
  rw [← List.append_nil shown]
  exact shows_program.bind (pure (make result))

/-- Showing one thing after the other shows the whole list. -/
theorem emitAll (emissions : List Emission) : Shows (Console.emitAll emissions) () emissions := by
  induction emissions with
  | nil => exact pure ()
  | cons emission rest ih => exact (emit emission).bind ih

end Shows

end Console

open Console

/-! ## Scans -/

section Scans
variable {σ : Type}

/-- Takes one event to the tokens found so far and the sink: its record is logged, and its
diagnostic goes to the sink. -/
def takeOn (sink : Sink σ) (left : List Token × σ) (event : Event) :
    StateM Console (List Token × σ) := do
  emitAll (event.record?.toList.map .log)
  match event.diagnostic? with
  | none => return (left.1 ++ event.token?.toList, left.2)
  | some diagnostic =>
    let (state, shown) := sink.report diagnostic left.2
    emitAll shown
    return (left.1 ++ event.token?.toList, state)

/-- Scans a source into a sink on the console. -/
def scanOn (sink : Sink σ) (state : σ) (source : String) : StateM Console (List Token × σ) := do
  emit (.log (openingRecord source))
  (Event.ofSource source).foldlM (takeOn sink) ([], state)

/-- Taking one event shows what the sink shows of it, and leaves its token and the sink's state. -/
theorem takeOn_shows (sink : Sink σ) (tokens : List Token) (state : σ) (event : Event) :
    Shows (takeOn sink (tokens, state) event)
      (tokens ++ event.token?.toList, (sink.take state event).1) (sink.take state event).2 := by
  unfold takeOn Sink.take
  cases event.diagnostic? with
  | none => exact (Shows.emitAll _).andReturn _
  | some diagnostic => exact (Shows.emitAll _).bind ((Shows.emitAll _).andReturn _)

/-- Taking events one by one shows what a run of the sink over all of them does. -/
theorem foldlM_takeOn_shows (sink : Sink σ) (tokens : List Token) (state : σ)
    (events : List Event) :
    Shows (events.foldlM (takeOn sink) (tokens, state))
      (tokens ++ (sink.run state events).tokens, (sink.run state events).sink)
      (sink.run state events).emissions := by
  induction events generalizing tokens state with
  | nil =>
      change Shows (pure _) (tokens ++ [], state) []
      rw [List.append_nil]
      exact .pure _
  | cons event rest ih =>
      rw [List.foldlM_cons]
      have later := ih (tokens ++ event.token?.toList) (sink.take state event).1
      rw [List.append_assoc] at later
      exact (takeOn_shows sink tokens state event).bind later

/-- A scan on the console finds and shows what the scan does. -/
theorem scanOn_shows (sink : Sink σ) (state : σ) (source : String) :
    Shows (scanOn sink state source)
      ((scanWith sink state source).tokens, (scanWith sink state source).sink)
      (scanWith sink state source).emissions :=
  (Shows.emit _).bind (foldlM_takeOn_shows sink [] state _)

end Scans

/-- Lists tokens on the console. -/
def listOn (quiet : Bool) (tokens : List Token) : StateM Console Unit :=
  emitAll (listing quiet tokens)

/-! ## Files -/

/-- Scans one file on the console. -/
def scanFileOn (quiet : Bool) (read : FileReader) (path : String) : StateM Console Nat := do
  emit (reading path)
  match (readSource read path).1 with
  | .error diagnostic =>
    emit (.log (.ofModule .error programPath diagnostic.described))
    emit (.errLine diagnostic.text)
    return inputStatus
  | .ok text =>
    let (tokens, reporter) ← scanOn Reporter.sink { file := some path } text
    listOn quiet tokens
    return if reporter.hadError then dataStatus else 0

/-- Scans files in order on the console. -/
def scanFilesOn (quiet : Bool) (read : FileReader) (paths : List String) : StateM Console Nat :=
  paths.foldlM (fun status path => do
    let next ← scanFileOn quiet read path
    return if next = 0 then status else next) 0

/-- A file is scanned on the console as it is without it. -/
theorem scanFileOn_shows (quiet : Bool) (read : FileReader) (path : String) :
    Shows (scanFileOn quiet read path) (scanFile quiet read path).status
      (scanFile quiet read path).emissions := by
  unfold scanFileOn scanFile
  have opened : (readSource read path).2 = [reading path] := rfl
  cases held : (readSource read path).1 with
  | error diagnostic =>
      simp only [opened, held]
      refine (Shows.emit _).bind ?_
      refine (Shows.emit _).bind ?_
      exact (Shows.emit _).andReturn _
  | ok text =>
      simp only [opened, held, List.append_assoc]
      refine (Shows.emit _).bind ?_
      refine (scanOn_shows _ _ text).bind ?_
      exact (Shows.emitAll _).andReturn _

theorem scanFilesOn_shows (quiet : Bool) (read : FileReader) (paths : List String) :
    Shows (scanFilesOn quiet read paths) (scanFiles quiet read paths).status
      (scanFiles quiet read paths).emissions := by
  -- What is carried from file to file is the status so far.
  have files (paths : List String) (first : Outcome) :
      Shows (paths.foldlM (fun status path => do
          let next ← scanFileOn quiet read path
          return if next = 0 then status else next) first.status)
        ((paths.map (scanFile quiet read)).foldl Outcome.andThen first).status
        (paths.flatMap fun path => (scanFile quiet read path).emissions) := by
    induction paths generalizing first with
    | nil => exact .pure _
    | cons path rest ih =>
        rw [List.foldlM_cons, List.flatMap_cons, List.map_cons, List.foldl_cons]
        refine Shows.bind ?_ (ih (first.andThen (scanFile quiet read path)))
        exact (scanFileOn_shows quiet read path).andReturn _
  have shown : (scanFiles quiet read paths).emissions =
      paths.flatMap fun path => (scanFile quiet read path).emissions := by
    rw [scanFiles_eq]
  rw [shown]
  exact files paths {}

/-! ## The prompt -/

/-- Answers lines one by one on the console. -/
def answerOn (quiet : Bool) (reporter : Reporter) : List String → StateM Console Unit
  | [] => return
  | line :: rest => do
    emit Prompt.asked
    let (tokens, told) ← scanOn Reporter.sink reporter line
    listOn quiet tokens
    answerOn quiet told.reset rest

/-- Runs a prompt on the console. -/
def promptOn (quiet : Bool) (read : FileReader) (input : Input) (saved : Except FileError Unit) :
    StateM Console Unit := do
  emitAll (Prompt.loadHistory read)
  answerOn quiet { file := none } input.lines
  emitAll (Prompt.farewell input)
  emitAll (Prompt.storeHistory saved)

/-- Lines are answered on the console as they are without it. -/
theorem answerOn_shows (quiet : Bool) (reporter : Reporter) (lines : List String) :
    Shows (answerOn quiet reporter lines) () (Prompt.answer quiet reporter lines) := by
  induction lines generalizing reporter with
  | nil => exact .pure ()
  | cons line rest ih =>
      unfold answerOn Prompt.answer
      simp only [List.append_assoc, List.cons_append]
      exact (Shows.emit _).bind ((scanOn_shows _ _ line).bind ((Shows.emitAll _).bind (ih _)))

/-- A prompt on the console shows what the prompt does. -/
theorem promptOn_shows (quiet : Bool) (read : FileReader) (input : Input)
    (saved : Except FileError Unit) :
    Shows (promptOn quiet read input saved) () (prompt quiet read input saved) := by
  unfold promptOn prompt
  simp only [List.append_assoc]
  exact (Shows.emitAll _).bind ((answerOn_shows quiet _ _).bind
    ((Shows.emitAll _).bind (Shows.emitAll _)))

/-! ## The program -/

/-- Runs the program on the console. -/
def runOn (arguments : List String) (read : FileReader) (input : Input)
    (saved : Except FileError Unit) : StateM Console Nat :=
  match Options.ofArguments arguments with
  | .error error => do
    emit (.errLine ("main: " ++ error.message))
    return usageStatus
  | .ok options => do
    if options.has .help then
      emitAll (usage.map .errLine)
      return 0
    if options.has .keywords then
      emitAll keywordListing
      return 0
    match options.files with
    | [] =>
      promptOn (options.has .quiet) read input saved
      return 0
    | paths => scanFilesOn (options.has .quiet) read paths

/-- A run on the console ends with the status of the run, and puts there what the run shows. -/
theorem runOn_shows (arguments : List String) (read : FileReader) (input : Input)
    (saved : Except FileError Unit) :
    Shows (runOn arguments read input saved) (run arguments read input saved).status
      (run arguments read input saved).emissions := by
  unfold runOn run
  cases Options.ofArguments arguments with
  | error error => exact (Shows.emit _).andReturn _
  | ok options =>
      simp only [runOptions]
      by_cases help : options.has .help = true
      · rw [if_pos help, if_pos help]
        exact (Shows.emitAll _).andReturn _
      rw [if_neg help, if_neg help]
      by_cases keywords : options.has .keywords = true
      · rw [if_pos keywords, if_pos keywords]
        exact (Shows.emitAll _).andReturn _
      rw [if_neg keywords, if_neg keywords]
      cases options.files with
      | nil => exact (promptOn_shows _ read input saved).andReturn _
      | cons path paths => exact scanFilesOn_shows _ read _

end LoxLexer.CommandLine
