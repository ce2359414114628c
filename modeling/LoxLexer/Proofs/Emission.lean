import LoxLexer.Log.Logger

/-! # The two outputs

What emissions put on either output. The standard output is the texts that go there, joined
(`Emission.join_map_outText`). The standard error is what is printed there, joined, which is texts
and, if there is a logger, lines of the log (`Emission.join_map_errText`); the lines of the log are
all that depends on the logger (`Emission.filter_isSaid_prints`). -/

namespace LoxLexer

/-- Something printed on the standard error: a text, or a record as a line of the log. -/
inductive Print where
  | said (text : String)
  | logged (record : Log.Record) (painted : Bool)
  deriving DecidableEq, Repr

namespace Print

def text : Print → String
  | said text => text
  | logged record painted => record.line painted

def isSaid : Print → Bool
  | said _ => true
  | logged _ _ => false

end Print

/-- The logger by which a record is printed, if it is. -/
def Log.Logging.loggerOf? (logging : Logging) (record : Record) : Option Logger :=
  if logging.admits record.level then
    logging.logger.filter fun logger => logger.filter.allows record.target record.level
  else none

namespace Emission

/-- The text of an emission for the standard output, if that is where it goes. -/
def out? : Emission → Option String
  | out text => some text
  | err _ | log _ => none

/-- The text of an emission for the standard error, if that is where it goes. -/
def err? : Emission → Option String
  | err text => some text
  | out _ | log _ => none

/-- What an emission prints on the standard error, if anything. -/
def print? (logging : Log.Logging) : Emission → Option Print
  | out _ => none
  | err text => some (.said text)
  | log record => (logging.loggerOf? record).map fun logger => .logged record logger.painted

/-- What emissions print on the standard error. -/
def prints (logging : Log.Logging) (emissions : List Emission) : List Print :=
  emissions.filterMap (print? logging)

/-- What is printed of two lists of emissions is printed of one after the other. -/
theorem prints_append (logging : Log.Logging) (first second : List Emission) :
    prints logging (first ++ second) = prints logging first ++ prints logging second :=
  List.filterMap_append

theorem prints_cons (logging : Log.Logging) (emission : Emission) (rest : List Emission) :
    prints logging (emission :: rest) =
      (emission.print? logging).toList ++ prints logging rest := by
  rw [prints, prints, List.filterMap_cons]
  cases emission.print? logging <;> rfl

/-- What is printed of emissions item by item is printed of each item in turn. -/
theorem prints_flatMap {α : Type} (logging : Log.Logging) (items : List α)
    (emissions : α → List Emission) :
    prints logging (items.flatMap emissions) =
      items.flatMap fun item => prints logging (emissions item) :=
  List.filterMap_flatMap

/-- An emission that has no text of a sort adds nothing to the texts of that sort joined. -/
theorem join_map_getD (text? : Emission → Option String) (emissions : List Emission) :
    String.join (emissions.map fun emission => (text? emission).getD "") =
      String.join (emissions.filterMap text?) := by
  induction emissions with
  | nil => rfl
  | cons emission rest ih =>
      rw [List.map_cons, String.join_cons, ih, List.filterMap_cons]
      cases text? emission with
      | none => exact String.empty_append
      | some text => exact String.join_cons.symm

/-- The standard output is the texts that go there, joined. -/
theorem join_map_outText (emissions : List Emission) :
    String.join (emissions.map outText) = String.join (emissions.filterMap out?) := by
  rw [← join_map_getD]
  congr 2
  funext emission
  cases emission <;> rfl

/-- A record adds its line if there is a logger that prints it, and nothing else. -/
theorem errText_log (logging : Log.Logging) (record : Log.Record) :
    logging.errText (log record) =
      ((logging.loggerOf? record).map fun logger => record.line logger.painted).getD "" := by
  change (if logging.admits record.level then logging.write record else "") = _
  unfold Log.Logging.loggerOf? Log.Logging.write
  cases logging.logger with
  | none => split <;> rfl
  | some logger =>
      rw [Option.filter_some]
      by_cases admitted : logging.admits record.level = true
      · rw [if_pos admitted, if_pos admitted]
        change (if logger.filter.allows record.target record.level then _ else "") = _
        split <;> rfl
      · rw [if_neg admitted, if_neg admitted]
        rfl

/-- An emission adds to the standard error the text of what it prints there. -/
theorem errText_eq (logging : Log.Logging) (emission : Emission) :
    logging.errText emission = ((emission.print? logging).map Print.text).getD "" := by
  cases emission with
  | log record =>
      rw [errText_log, print?, Option.map_map]
      rfl
  | _ => rfl

/-- The standard error is the texts of what is printed there, joined. -/
theorem join_map_errText (logging : Log.Logging) (emissions : List Emission) :
    String.join (emissions.map logging.errText) =
      String.join ((prints logging emissions).map Print.text) := by
  rw [prints, List.map_filterMap, ← join_map_getD]
  congr 2
  funext emission
  exact errText_eq logging emission

/-- Apart from the lines of the log, the same is printed whatever the logging. -/
theorem filter_isSaid_prints (logging : Log.Logging) (emissions : List Emission) :
    (prints logging emissions).filter Print.isSaid =
      (emissions.filterMap err?).map Print.said := by
  rw [prints, List.filter_filterMap, List.map_filterMap]
  congr 1
  funext emission
  cases emission with
  | log record =>
      rw [print?]
      cases logging.loggerOf? record <;> rfl
  | _ => rfl

/-- Without a logger nothing is logged. -/
theorem prints_of_no_logger (emissions : List Emission) :
    prints {} emissions = (emissions.filterMap err?).map Print.said := by
  rw [prints, List.map_filterMap]
  congr 1
  funext emission
  cases emission <;> rfl

/-- Texts listed item by item are joined as the items are joined each. -/
theorem join_flatMap {α : Type} (items : List α) (texts : α → List String) :
    String.join (items.flatMap texts) =
      String.join (items.map fun item => String.join (texts item)) := by
  induction items with
  | nil => rfl
  | cons item rest ih =>
      rw [List.flatMap_cons, String.join_append, ih, List.map_cons, String.join_cons]

end Emission

end LoxLexer
