import LoxLexer.Proofs.Emission
import LoxLexer.Proofs.Sink.References

/-! # The reporter beside a collection

A reporter does not keep what it is told, only how much that was. So it is a view of the collection
that the same steps would have made (`Reporter.counting`): every step keeps it so, whatever mixture
of scans, single diagnostics and resets went before, and prints the diagnostics that the collection
receives in the step, each in the reporter's file unless it has a file of its own
(`Reporter.counts_collected`). -/

namespace LoxLexer.Reporter

/-- The reporter of a file, or of none, that has been told of what is collected. -/
def counting (file : Option String) (collected : List Diagnostic) : Reporter where
  file := file
  errors := collected.length

/-- The diagnostic in its own file or else in the given one, if there is one, as it is printed. -/
def line (file : Option String) (diagnostic : Diagnostic) : String :=
  { diagnostic with file := diagnostic.file.or file : Diagnostic }.text ++ "\n"

/-- What emissions print on the standard error in a process without a logger. -/
def printed (emissions : List Emission) : String :=
  String.join (emissions.map (Log.Logging.errText {}))

/-- Something done with a sink. -/
inductive Step where
  | scan (source : String)
  | tell (diagnostic : Diagnostic)
  | reset
  deriving DecidableEq, Repr

namespace Step

/-- The step done with a reporter, and what it shows. -/
def withReporter (reporter : Reporter) : Step → Reporter × List Emission
  | scan source =>
    let scan := scanWith Reporter.sink reporter source
    (scan.sink, scan.emissions)
  | tell diagnostic => Reporter.sink.report diagnostic reporter
  | reset => (reporter.reset, [])

/-- The step done with a collection, which a reset empties. -/
def withCollection (collected : List Diagnostic) : Step → List Diagnostic
  | scan source => (scanWith .collecting collected source).sink
  | tell diagnostic => (Sink.collecting.report diagnostic collected).1
  | reset => []

end Step

/-! ## What is printed -/

/-- Without a logger, what is printed on the standard error is the lines for it. -/
theorem printed_eq (emissions : List Emission) :
    printed emissions = String.join (emissions.filterMap Emission.err?) := by
  rw [printed, Emission.join_map_errText, Emission.prints_of_no_logger, List.map_map]
  exact congrArg String.join (List.map_id _)

/-- A reporter places a diagnostic in its own file if that has none. -/
theorem placed_eq (reporter : Reporter) (diagnostic : Diagnostic) :
    reporter.placed diagnostic = { diagnostic with file := diagnostic.file.or reporter.file } := by
  obtain ⟨file, errors⟩ := reporter
  obtain ⟨fault, line, own⟩ := diagnostic
  cases file <;> cases own <;> rfl

/-- A report prints one line. -/
theorem errs_report (reporter : Reporter) (diagnostic : Diagnostic) :
    (Reporter.sink.report diagnostic reporter).2.filterMap Emission.err? =
      [line reporter.file diagnostic] := by
  change [(reporter.placed diagnostic).text ++ "\n"] = _
  rw [placed_eq]
  rfl

/-- One event is logged, and then its diagnostic is printed. -/
theorem errs_take (reporter : Reporter) (event : Event) :
    (Reporter.sink.take reporter event).2.filterMap Emission.err? =
      event.diagnostic?.toList.map (line reporter.file) := by
  have silent : (event.record?.toList.map Emission.log).filterMap Emission.err? = [] := by
    cases event.record? <;> rfl
  unfold Sink.take
  cases event.diagnostic? with
  | none => exact silent
  | some diagnostic =>
      simp only [List.filterMap_append, silent, errs_report, List.nil_append]
      rfl

theorem outs_take (reporter : Reporter) (event : Event) :
    (Reporter.sink.take reporter event).2.filterMap Emission.out? = [] := by
  unfold Sink.take
  cases event.record? <;> cases event.diagnostic? <;> rfl

theorem file_take (reporter : Reporter) (event : Event) :
    (Reporter.sink.take reporter event).1.file = reporter.file := by
  unfold Sink.take
  cases event.diagnostic? <;> rfl

/-- A run prints one line for each diagnostic, in order. -/
theorem errs_run (reporter : Reporter) (events : List Event) :
    (Reporter.sink.run reporter events).emissions.filterMap Emission.err? =
      (events.filterMap Event.diagnostic?).map (line reporter.file) := by
  induction events generalizing reporter with
  | nil => rfl
  | cons event rest ih =>
      unfold Sink.run
      rw [List.filterMap_append, errs_take, ih, file_take, List.filterMap_cons]
      cases event.diagnostic? <;> rfl

theorem outs_run (reporter : Reporter) (events : List Event) :
    (Reporter.sink.run reporter events).emissions.filterMap Emission.out? = [] := by
  induction events generalizing reporter with
  | nil => rfl
  | cons event rest ih =>
      unfold Sink.run
      rw [List.filterMap_append, outs_take, ih]
      rfl

/-- A scan prints the diagnostics that it would collect. -/
theorem errs_scanWith (reporter : Reporter) (source : String) :
    (scanWith Reporter.sink reporter source).emissions.filterMap Emission.err? =
      (scanWith .collecting [] source).sink.map (line reporter.file) := by
  rw [sink_scanWith_collecting]
  exact errs_run reporter _

/-- A scan has nothing for the standard output. -/
theorem outs_scanWith (reporter : Reporter) (source : String) :
    (scanWith Reporter.sink reporter source).emissions.filterMap Emission.out? = [] :=
  outs_run reporter _

/-! ## What is counted -/

/-- A reporter counts what it is told. -/
theorem told_counting (file : Option String) (collected diagnostics : List Diagnostic) :
    Reporter.sink.told (counting file collected) diagnostics =
      counting file (collected ++ diagnostics) := by
  induction diagnostics generalizing collected with
  | nil => rw [List.append_nil]; rfl
  | cons diagnostic rest ih =>
      have told : (Reporter.sink.report diagnostic (counting file collected)).1 =
          counting file (collected ++ [diagnostic]) := by
        unfold counting
        rw [List.length_append]
        rfl
      rw [List.append_cons, ← ih, ← told]
      rfl

namespace Step

/-- One step leaves the reporter a view of the collection that the step leaves. -/
theorem withReporter_counting (file : Option String) (collected : List Diagnostic) (step : Step) :
    (step.withReporter (counting file collected)).1 =
      counting file (step.withCollection collected) := by
  cases step with
  | scan source =>
      change (scanWith Reporter.sink _ source).sink =
        counting file (scanWith .collecting collected source).sink
      rw [Sink.sink_scanWith, told_counting, Sink.sink_scanWith_append collected]
  | tell diagnostic => exact told_counting file collected [diagnostic]
  | reset => rfl

/-- A step prints the lines of what it collects. -/
theorem printed_withReporter (reporter : Reporter) (step : Step) :
    printed (step.withReporter reporter).2 =
      String.join ((step.withCollection []).map (line reporter.file)) := by
  cases step with
  | scan source =>
      rw [printed_eq]
      exact congrArg String.join (errs_scanWith reporter source)
  | tell diagnostic =>
      rw [printed_eq]
      exact congrArg String.join (errs_report reporter diagnostic)
  | reset => rfl

/-- Unless it is a reset, a step adds to the collection what it would collect alone. -/
theorem withCollection_eq (collected : List Diagnostic) (step : Step) :
    step.withCollection collected =
      if step = reset then [] else collected ++ step.withCollection [] := by
  cases step with
  | scan source => exact Sink.sink_scanWith_append collected source
  | tell diagnostic => rfl
  | reset => rfl

/-- After any steps, a reporter has counted what is collected. -/
theorem foldl_withReporter (file : Option String) (collected : List Diagnostic)
    (steps : List Step) :
    steps.foldl (fun reporter step => (step.withReporter reporter).1) (counting file collected) =
      counting file (steps.foldl withCollection collected) := by
  apply List.foldl_hom
  intro collected step
  exact withReporter_counting file collected step

end Step

/-- After any steps a reporter has counted the diagnostics that the same steps have collected since
the last reset, it reports an error if there are any, and its file is what it was. The next step,
whichever it is, prints the diagnostics that it adds to the collection, each on a line, in order and
in the reporter's file unless it has a file of its own. -/
theorem counts_collected (file : Option String) (steps : List Step) :
    let reporter := steps.foldl (fun reporter step => (step.withReporter reporter).1) { file }
    let collected := steps.foldl Step.withCollection []
    reporter.errors = collected.length ∧
      (reporter.hadError = true ↔ collected.length ≠ 0) ∧
      reporter.file = file ∧
      ∀ step : Step,
        step.withCollection collected =
            (if step = .reset then [] else collected ++ step.withCollection []) ∧
          printed (step.withReporter reporter).2 =
            String.join ((step.withCollection []).map (line file)) := by
  intro reporter collected
  have view : reporter = counting file collected := Step.foldl_withReporter file [] steps
  refine ⟨congrArg errors view, ?_, congrArg Reporter.file view, ?_⟩
  · rw [view]
    exact bne_iff_ne
  · intro step
    refine ⟨step.withCollection_eq collected, ?_⟩
    rw [step.printed_withReporter, view]
    rfl

end LoxLexer.Reporter
