import LoxLexer.Diagnostic.Basic
import LoxLexer.Emission

/-! # Sinks

A sink takes diagnostics one at a time, changes its state, and may show something. One sink
collects them in a list; another, the reporter, prints each as it comes and counts them. -/

namespace LoxLexer

/-- A taker of diagnostics with states of type `σ`. -/
structure Sink (σ : Type) where
  report : Diagnostic → σ → σ × List Emission

namespace Sink

/-- The sink that appends every diagnostic to a list and shows nothing. -/
def collecting : Sink (List Diagnostic) where
  report diagnostic collected := (collected ++ [diagnostic], [])

end Sink

/-- A sink that prints diagnostics, with the file they belong to and the number it has printed. -/
structure Reporter where
  file : Option String
  errors : Nat := 0
  deriving DecidableEq, Repr

namespace Reporter

def hadError (reporter : Reporter) : Bool :=
  reporter.errors != 0

/-- The reporter with its count at zero. -/
def reset (reporter : Reporter) : Reporter :=
  { reporter with errors := 0 }

/-- The diagnostic placed in the reporter's file, unless it has a file of its own. -/
def placed (reporter : Reporter) (diagnostic : Diagnostic) : Diagnostic :=
  match reporter.file, diagnostic.file with
  | some file, none => diagnostic.inFile file
  | _, _ => diagnostic

/-- Reporting logs the diagnostic, prints it on the standard error, and counts it. -/
def sink : Sink Reporter where
  report diagnostic reporter :=
    let shown := (reporter.placed diagnostic).text
    ({ reporter with errors := reporter.errors + 1 },
      [.log (.ofModule .error "lox::error" shown), .errLine shown])

/-- The reporter with its parts named. -/
def described (reporter : Reporter) : String :=
  Text.record "Reporter"
    [("file", Text.optional Text.quote reporter.file),
     ("errors", toString reporter.errors)]

end Reporter

end LoxLexer
