import LoxLexer.Proofs.Log.Directive

/-! # The maximum level of a process

The maximum that the first directive of a process sets keeps back no record that the logger lets
through, so asking for it first changes nothing, and it is no higher than it must be
(`Logging.maximum_of_first_directive`). -/

namespace LoxLexer.Log

/-- The line of a record is never empty. -/
theorem Record.line_ne_empty (record : Record) (painted : Bool) : record.line painted ≠ "" := by
  intro empty
  have ending := (String.append_eq_empty_iff.mp empty).2
  exact absurd ending (by decide)

namespace Filter

/-- No record beyond the maximum is let through. -/
theorem exists_maximum_of_allows {filter : Filter} {target : String} {level : Level}
    (allowed : filter.allows target level = true) :
    ∃ most, filter.maximum = some most ∧ level ≤ most := by
  obtain ⟨component, -, limit, found, within⟩ := allows_iff.mp allowed
  obtain ⟨most, highest, below⟩ := exists_maximum_of_levelFor found
  exact ⟨most, highest, Std.le_trans within below⟩

/-- The maximum that a directive sets is let through from some target. -/
theorem exists_allows_of_maximum {directive : String} {most : Level}
    (highest : (ofDirective directive).maximum = some most) :
    ∃ target, (ofDirective directive).allows target most = true := by
  have some_target (target : Target)
      (found : (ofDirective directive).levelFor target.component = some most) :
      ∃ target, (ofDirective directive).allows target most = true :=
    ⟨target.text, allows_target_iff.mpr ⟨most, found, Std.le_refl most⟩⟩
  rcases exists_levelFor_of_maximum (overall_or_components_ofDirective directive) highest with
    every | ⟨entry, held, found⟩
  · exact some_target ⟨"lox", none, isComponent_lox⟩ (every "lox")
  · exact some_target ⟨entry.1, none, namesComponents_ofDirective directive entry held⟩ found

end Filter

namespace Logging

/-- After the first directive of a process the maximum level is that of the directive's filter. -/
theorem maximum_init (directive : String) (terminal : Bool) :
    (init {} (some directive) terminal).maximum = (Filter.ofDirective directive).maximum :=
  rfl

/-- After a first directive a record handed to the logger is printed if it is enabled. -/
theorem write_init (logging : Logging) (directive : String) (terminal : Bool) (record : Record) :
    (logging.init (some directive) terminal).write record =
      if (logging.init (some directive) terminal).enabled record.target record.level then
        record.line terminal
      else "" :=
  rfl

/-- After a first directive the maximum keeps back nothing that is enabled. -/
theorem admits_of_enabled {directive target : String} {terminal : Bool} {level : Level}
    (enabled : (init {} (some directive) terminal).enabled target level = true) :
    (init {} (some directive) terminal).admits level = true := by
  rw [enabled_init] at enabled
  obtain ⟨most, highest, below⟩ := Filter.exists_maximum_of_allows enabled
  rw [admits, maximum_init, highest]
  exact decide_eq_true below

/-- After the first directive of a process, every record that is let through is within the maximum
level, so what is printed of a record is its line if it is let through and else nothing, as if there
were no maximum. And where there is one, a record of just that level is let through from some
target. -/
theorem maximum_of_first_directive (directive : String) (terminal : Bool) :
    let logging := Logging.init {} (some directive) terminal
    (∀ target level, logging.enabled target level = true →
        ∃ most, logging.maximum = some most ∧ level ≤ most) ∧
      (∀ record : Record, record.line terminal ≠ "" ∧
        logging.errText (.log record) =
          if logging.enabled record.target record.level then record.line terminal else "") ∧
      ∀ most, logging.maximum = some most → ∃ target, logging.enabled target most = true := by
  intro logging
  refine ⟨?_, ?_, ?_⟩
  · intro target level enabled
    rw [enabled_init] at enabled
    rw [maximum_init]
    exact Filter.exists_maximum_of_allows enabled
  · intro record
    refine ⟨record.line_ne_empty terminal, ?_⟩
    change (if logging.admits record.level then logging.write record else "") = _
    rw [write_init]
    by_cases enabled : logging.enabled record.target record.level = true
    · rw [if_pos (admits_of_enabled enabled)]
    · rw [if_neg enabled, ite_self]
  · intro most highest
    rw [maximum_init] at highest
    exact Filter.exists_allows_of_maximum highest

/-- A later term takes back the level that an earlier one has set for the same component. -/
theorem maximum_of_first_directive_overridden :
    let logging := Logging.init {} (some " lox-log=TRACE,lox_log=warn, lox_log=loud") false
    (logging.enabled "lox_log::part" .error = true ∧
        ∃ most, logging.maximum = some most ∧ Level.error ≤ most) ∧
      logging.maximum = some .warn ∧ ∃ target, logging.enabled target .warn = true := by
  intro logging
  obtain ⟨within, -, reached⟩ :=
    maximum_of_first_directive " lox-log=TRACE,lox_log=warn, lox_log=loud" false
  have enabled : logging.enabled "lox_log::part" .error = true := by decide +kernel
  have highest : logging.maximum = some .warn := by decide +kernel
  exact ⟨⟨enabled, within "lox_log::part" .error enabled⟩, highest, reached .warn highest⟩

end Logging

end LoxLexer.Log
