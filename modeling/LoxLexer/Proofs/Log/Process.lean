import LoxLexer.Proofs.Log.Maximum

/-! # Logging over the life of a process

A process can start its logging any number of times. What the logger lets through and whether it
paints are then as the last directive asks, while the maximum level is as the first one asked
(`Logging.started_eq`). So a start after the first may be carried out in part only: which ones are,
and when records that the logger lets through are kept back by the maximum, is decided by the first
directive and the last (`Logging.init_allOrNothing_iff`).

Whether a start changes something is asked of the configuration and not of the order in which a
directive names the components (`Logging.Agrees`). -/

namespace LoxLexer.Log

/-- One start of the logging: its directive, if there is one, and whether the standard error is a
terminal. -/
structure Start where
  directive : Option String
  terminal : Bool
  deriving DecidableEq, Repr

/-- The logger that a start asks for; without a directive it asks for none. -/
def Start.logger? (start : Start) : Option Logger :=
  start.directive.map fun text => ⟨Filter.ofDirective text, start.terminal⟩

/-- The loggers that some starts ask for, in order. -/
def Start.loggers (starts : List Start) : List Logger :=
  starts.filterMap Start.logger?

/-- The loggers have one configuration and paint alike. -/
structure Logger.Agrees (a b : Logger) : Prop where
  filter : a.filter.Agrees b.filter
  painted : a.painted = b.painted

theorem Logger.agrees_refl (logger : Logger) : logger.Agrees logger :=
  ⟨logger.filter.agrees_refl, rfl⟩

namespace Logging

/-- The maximum level is the same, and so is the logger, if there is one. -/
structure Agrees (a b : Logging) : Prop where
  logger : Option.Rel Logger.Agrees a.logger b.logger
  maximum : a.maximum = b.maximum

theorem agrees_refl (logging : Logging) : logging.Agrees logging where
  logger := by
    cases logging.logger with
    | none => exact .none
    | some logger => exact .some logger.agrees_refl
  maximum := rfl

/-- Where there are two loggers, logging agrees if the loggers do and the maximum is one. -/
theorem agrees_some_iff {a b : Logger} {maximum other : Option Level} :
    (Logging.mk (some a) maximum).Agrees ⟨some b, other⟩ ↔ a.Agrees b ∧ maximum = other := by
  constructor
  · rintro ⟨⟨same⟩, maximum⟩
    exact ⟨same, maximum⟩
  · rintro ⟨same, maximum⟩
    exact ⟨.some same, maximum⟩

/-- Loggers that agree print the same of every record. -/
theorem write_eq_of_agrees {a b : Option Logger} (agrees : Option.Rel Logger.Agrees a b)
    (maximum other : Option Level) (record : Record) :
    (Logging.mk a maximum).write record = (Logging.mk b other).write record := by
  unfold write
  cases agrees with
  | none => rfl
  | some same => simp only [same.filter.allows_eq, same.painted]

/-- Where the logging agrees, each emission adds the same to the standard error. -/
theorem Agrees.errText_eq {a b : Logging} (agrees : a.Agrees b) (emission : Emission) :
    a.errText emission = b.errText emission := by
  cases emission with
  | out text => rfl
  | err text => rfl
  | log record =>
      have written : a.write record = b.write record :=
        write_eq_of_agrees agrees.logger a.maximum b.maximum record
      have admitted : a.admits record.level = b.admits record.level := by
        unfold admits
        rw [agrees.maximum]
      change (if a.admits record.level then a.write record else "") = _
      rw [admitted, written]
      rfl

/-- The logging with which a logger is installed in full. -/
def ofLogger (logger : Logger) : Logging where
  logger := some logger
  maximum := logger.filter.maximum

/-- The logging of a process after some starts. -/
def started (starts : List Start) : Logging :=
  starts.foldl (fun logging start => logging.init start.directive start.terminal) {}

/-- The maximum level that goes with the logger, if there is one. -/
def loggerMaximum (logging : Logging) : Option Level :=
  logging.logger.bind (·.filter.maximum)

/-- A start leaves everything as it was or makes everything what it asks for. -/
def AllOrNothing (logging : Logging) (start : Start) : Prop :=
  let after := logging.init start.directive start.terminal
  after.Agrees logging ∨ ∃ logger ∈ start.logger?, after.Agrees (ofLogger logger)

/-! ## What starts leave -/

/-- A start with a directive changes the logger, and the maximum only if there was no logger. -/
theorem init_of_logger? (logging : Logging) {start : Start} {logger : Logger}
    (asked : start.logger? = some logger) :
    logging.init start.directive start.terminal =
      ⟨some logger,
        if logging.logger.isNone then logger.filter.maximum else logging.maximum⟩ := by
  obtain ⟨directive, terminal⟩ := start
  cases directive with
  | none => cases asked
  | some text =>
      cases asked
      rfl

/-- A start without a directive changes nothing. -/
theorem init_of_logger?_eq_none (logging : Logging) {start : Start}
    (asked : start.logger? = none) :
    logging.init start.directive start.terminal = logging := by
  obtain ⟨directive, terminal⟩ := start
  cases directive with
  | none => rfl
  | some text => cases asked

/-- The logger is the one asked for last, the maximum level is that of the one asked for first. -/
theorem started_eq (starts : List Start) :
    started starts =
      ⟨(Start.loggers starts).getLast?, (Start.loggers starts).head?.bind (·.filter.maximum)⟩ := by
  induction starts using List.reverseRecOn with
  | nil => rfl
  | append_singleton starts start ih =>
      have later : started (starts ++ [start]) =
          (started starts).init start.directive start.terminal := by
        unfold started
        rw [List.foldl_append, List.foldl_cons, List.foldl_nil]
      unfold Start.loggers at ih ⊢
      rw [later, ih, List.filterMap_append, List.filterMap_cons, List.filterMap_nil]
      cases asked : start.logger? with
      | none =>
          simp only [List.append_nil]
          exact init_of_logger?_eq_none _ asked
      | some logger =>
          simp only [List.getLast?_concat]
          rw [init_of_logger? _ asked]
          -- The maximum is that of this start only if no earlier one has installed a logger.
          cases starts.filterMap Start.logger? with
          | nil => rfl
          | cons first rest => simp

/-- A record is let through if the filter asked for last allows it. -/
theorem enabled_started {starts : List Start} {target : String} {level : Level} :
    (started starts).enabled target level = true ↔
      ∃ last ∈ (Start.loggers starts).getLast?, last.filter.allows target level = true := by
  rw [started_eq, enabled, Option.any_eq_true]
  rfl

/-- A level is admitted if it is within the maximum of the filter asked for first. -/
theorem admits_started {starts : List Start} {level : Level} :
    (started starts).admits level = true ↔
      ∃ first ∈ (Start.loggers starts).head?, ∃ limit ∈ first.filter.maximum, level ≤ limit := by
  rw [started_eq, admits, Option.any_eq_true]
  simp only [Option.bind_eq_some_iff, decide_eq_true_eq, Option.mem_def]
  constructor
  · rintro ⟨limit, ⟨first, asked, highest⟩, within⟩
    exact ⟨first, asked, limit, highest, within⟩
  · rintro ⟨first, asked, limit, highest, within⟩
    exact ⟨limit, ⟨first, asked, highest⟩, within⟩

/-- The maximum of a filter asked for is let through from some target. -/
theorem exists_allows_of_mem_loggers {starts : List Start} {logger : Logger} {most : Level}
    (asked : logger ∈ Start.loggers starts) (highest : logger.filter.maximum = some most) :
    ∃ target, logger.filter.allows target most = true := by
  obtain ⟨start, -, made⟩ := List.mem_filterMap.mp asked
  obtain ⟨directive, -, rfl⟩ := Option.map_eq_some_iff.mp made
  exact Filter.exists_allows_of_maximum highest

/-! ## Starts that are carried out in part -/

/-- A start is carried out in full or not at all if it asks for what the last one asked for, or for
a filter with the maximum of the first. -/
theorem allOrNothing_iff {starts : List Start} {start : Start} :
    AllOrNothing (started starts) start ↔
      ∀ logger ∈ start.logger?, ∀ first ∈ (Start.loggers starts).head?,
        (∃ last ∈ (Start.loggers starts).getLast?, logger.Agrees last) ∨
          logger.filter.maximum = first.filter.maximum := by
  unfold AllOrNothing
  cases asked : start.logger? with
  | none => simp [init_of_logger?_eq_none _ asked, agrees_refl]
  | some logger =>
      rw [init_of_logger? _ asked, started_eq]
      cases Start.loggers starts with
      | nil => simp [ofLogger, agrees_refl]
      | cons first rest =>
          obtain ⟨last, installed⟩ : ∃ last, (first :: rest).getLast? = some last :=
            ⟨_, List.getLast?_eq_some_getLast (List.cons_ne_nil first rest)⟩
          simp only [installed, Option.isNone_some, Bool.false_eq_true, ↓reduceIte, ofLogger,
            Option.mem_def, Option.some.injEq, List.head?_cons, Option.bind_some, exists_eq_left',
            forall_eq', agrees_some_iff, and_true, logger.agrees_refl, true_and]
          exact or_congr_right eq_comm

/-- A start that asks for the configuration of the first is carried out in full or not at all. -/
theorem allOrNothing_of_agrees_first {starts : List Start} {start : Start} {first : Logger}
    (earliest : (Start.loggers starts).head? = some first)
    (same : ∀ logger ∈ start.logger?, logger.filter.Agrees first.filter) :
    AllOrNothing (started starts) start := by
  rw [allOrNothing_iff, earliest]
  intro logger asked other is_first
  obtain rfl := Option.some.inj is_first
  exact .inr (same logger asked).maximum_eq

example :
    AllOrNothing (started [⟨some "a=info,b=warn", false⟩]) ⟨some "b=warn,a=info", true⟩ := by
  have earlier : Filter.ofDirective "a=info,b=warn" =
      (({} : Filter).set "a" .info).set "b" .warn := by decide +kernel
  have later : Filter.ofDirective "b=warn,a=info" =
      (({} : Filter).set "b" .warn).set "a" .info := by decide +kernel
  refine allOrNothing_of_agrees_first rfl ?_
  rintro logger ⟨⟩
  change (Filter.ofDirective "b=warn,a=info").Agrees (Filter.ofDirective "a=info,b=warn")
  rw [earlier, later]
  exact Filter.agrees_set_set {} (by decide) .warn .info

/-- The maximum keeps back nothing that is let through if and only if the filter asked for last does
not go beyond that of the one asked for first. -/
theorem admits_of_enabled_started_iff {starts : List Start} :
    (∀ target level, (started starts).enabled target level = true →
        (started starts).admits level = true) ↔
      ∀ last ∈ (Start.loggers starts).getLast?, ∀ most ∈ last.filter.maximum,
        ∃ first ∈ (Start.loggers starts).head?, ∃ limit ∈ first.filter.maximum, most ≤ limit := by
  constructor
  · intro admitted last asked most highest
    obtain ⟨target, allowed⟩ :=
      exists_allows_of_mem_loggers (List.mem_of_getLast? asked) highest
    exact admits_started.mp (admitted target most (enabled_started.mpr ⟨last, asked, allowed⟩))
  · intro within target level enabled
    obtain ⟨last, asked, allowed⟩ := enabled_started.mp enabled
    obtain ⟨most, highest, below⟩ := Filter.exists_maximum_of_allows allowed
    obtain ⟨first, earliest, limit, found, above⟩ := within last asked most highest
    exact admits_started.mpr ⟨first, earliest, limit, found, Std.le_trans below above⟩

/-- The maximum is that of the filter in use if the first filter and the last have the same. -/
theorem maximum_started_iff {starts : List Start} :
    (started starts).maximum = (started starts).loggerMaximum ↔
      ∀ first ∈ (Start.loggers starts).head?, ∀ last ∈ (Start.loggers starts).getLast?,
        first.filter.maximum = last.filter.maximum := by
  rw [started_eq, loggerMaximum]
  cases Start.loggers starts with
  | nil => simp
  | cons first rest => simp [List.getLast?_eq_some_getLast]

/-- After any starts the logger is the one that the last directive asks for, and the maximum level
is that of the first directive's filter. So the next start, if it has a directive and is not the
first that has one, leaves everything or makes everything its own only where it asks for what the
logger that is there has, or for a filter with the maximum of the first. The maximum is that of the
filter in use if and only if the first filter and the last have the same, and it keeps back nothing
that the filter in use lets through if and only if the last does not go beyond the first. -/
theorem init_allOrNothing_iff (starts : List Start) (start : Start) :
    let logging := started starts
    let loggers := Start.loggers starts
    logging = ⟨loggers.getLast?, loggers.head?.bind (·.filter.maximum)⟩ ∧
      (AllOrNothing logging start ↔
        ∀ logger ∈ start.logger?, ∀ first ∈ loggers.head?,
          (∃ last ∈ loggers.getLast?, logger.Agrees last) ∨
            logger.filter.maximum = first.filter.maximum) ∧
      (logging.maximum = logging.loggerMaximum ↔
        ∀ first ∈ loggers.head?, ∀ last ∈ loggers.getLast?,
          first.filter.maximum = last.filter.maximum) ∧
      ((∀ target level, logging.enabled target level = true → logging.admits level = true) ↔
        ∀ last ∈ loggers.getLast?, ∀ most ∈ last.filter.maximum,
          ∃ first ∈ loggers.head?, ∃ limit ∈ first.filter.maximum, most ≤ limit) := by
  intro logging loggers
  exact ⟨started_eq starts, allOrNothing_iff, maximum_started_iff, admits_of_enabled_started_iff⟩

/-- A second directive that asks for more than the first changes what is let through and not the
maximum, which then keeps it back. -/
theorem not_allOrNothing_trace_after_error :
    let error : Start := ⟨some "error", false⟩
    let trace : Start := ⟨some "trace", false⟩
    ¬ AllOrNothing (started [error]) trace ∧
      (started [error, trace]).maximum ≠ (started [error, trace]).loggerMaximum ∧
      (started [error, trace]).enabled "lox" .trace = true ∧
      (started [error, trace]).admits .trace = false := by
  intro error trace
  have asked : trace.logger? = some ⟨{ overall := some .trace }, false⟩ := by decide +kernel
  have first : (Start.loggers [error]).head? = some ⟨{ overall := some .error }, false⟩ := by
    decide +kernel
  refine ⟨?_, by decide +kernel, by decide +kernel, by decide +kernel⟩
  rw [allOrNothing_iff]
  intro all
  rcases all _ asked _ first with ⟨last, installed, same⟩ | same
  · have only : (Start.loggers [error]).getLast? = some ⟨{ overall := some .error }, false⟩ := by
      decide +kernel
    obtain rfl := Option.some.inj (only.symm.trans installed)
    exact absurd same.filter.overall (by decide)
  · exact absurd same (by decide)

end Logging

end LoxLexer.Log
