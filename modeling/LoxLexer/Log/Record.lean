import LoxLexer.Log.Level

/-! # Log records

What is said, how important it is, and where it comes from. A path such as `component::part` names
a part of a component; the target of a record decides whether it is let through, and the module, if
it is known, is what is shown. -/

namespace LoxLexer.Log

/-- One thing to be logged. -/
structure Record where
  level : Level
  target : String
  module : Option String
  message : String
  deriving DecidableEq, Repr

namespace Record

/-- A record whose target is the module it comes from. -/
def ofModule (level : Level) (path : String) (message : String) : Record where
  level := level
  target := path
  module := some path
  message := message

/-- The path shown with the record. -/
def origin (record : Record) : String :=
  record.module.getD record.target

end Record

end LoxLexer.Log
