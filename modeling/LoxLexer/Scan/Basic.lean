import LoxLexer.Scan.Sink
import LoxLexer.Source.Event

/-! # Scanning

A scan goes through what a source holds, in order: tokens are gathered, diagnostics are handed to a
sink, and everything met is logged. It always reaches the end of the source. -/

namespace LoxLexer

/-- What a scan leaves: the tokens, the state of the sink, and what was shown on the way. -/
structure Scan (σ : Type) where
  tokens : List Token
  sink : σ
  emissions : List Emission

namespace Sink
variable {σ : Type}

/-- One event: its record is logged, then its diagnostic goes to the sink. -/
def take (sink : Sink σ) (state : σ) (event : Event) : σ × List Emission :=
  let logged := event.record?.toList.map Emission.log
  match event.diagnostic? with
  | none => (state, logged)
  | some diagnostic =>
    let reported := sink.report diagnostic state
    (reported.1, logged ++ reported.2)

/-- A run of events, from a state of the sink on. -/
def run (sink : Sink σ) : σ → List Event → Scan σ
  | state, [] => ⟨[], state, []⟩
  | state, event :: rest =>
    let taken := sink.take state event
    let later := sink.run taken.1 rest
    ⟨event.token?.toList ++ later.tokens, later.sink, taken.2 ++ later.emissions⟩

end Sink

variable {σ : Type}

/-- The path under which the library logs. -/
def libraryPath : String := "lox"

/-- The record that a scan begins with. -/
def openingRecord (source : String) : Log.Record :=
  .ofModule .debug libraryPath ("scan " ++ toString source.utf8ByteSize ++ " bytes")

/-- Scans a source into a sink. -/
def scanWith (sink : Sink σ) (state : σ) (source : String) : Scan σ :=
  let scan := sink.run state (Event.ofSource source)
  { scan with emissions := .log (openingRecord source) :: scan.emissions }

/-- Scans a source, giving its tokens if nothing is wrong with it and else every diagnostic, beside
what was shown. -/
def scan (source : String) : Except (List Diagnostic) (List Token) × List Emission :=
  let scan := scanWith .collecting [] source
  match scan.sink with
  | [] => (.ok scan.tokens, scan.emissions)
  | diagnostics =>
    let counted := Log.Record.ofModule .debug libraryPath
      (toString diagnostics.length ++ " errors")
    (.error diagnostics, scan.emissions ++ [.log counted])

end LoxLexer
