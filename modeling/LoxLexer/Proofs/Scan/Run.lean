import LoxLexer.Scan.Basic

/-! # What a scan leaves

The tokens of a scan are those of the events it meets, whatever the sink, and the sink takes their
diagnostics one by one. Lines aside, both can be read off the segments of the source. -/

namespace LoxLexer

/-- What a token says, wherever it stands. -/
structure Token.Content where
  kind : TokenKind
  lexeme : String
  literal : Option Literal
  deriving DecidableEq, Repr

def Token.content (token : Token) : Token.Content where
  kind := token.kind
  lexeme := token.lexeme
  literal := token.literal

/-- What the token that ends every list of tokens says. -/
def Token.Content.eof : Token.Content where
  kind := .eof
  lexeme := ""
  literal := none

namespace Segment

/-- What the token of a segment says; only lexemes make tokens. -/
def content? : Segment → Option Token.Content
  | lexeme piece => some (piece.token 0).content
  | _ => none

/-- What is wrong with a segment, if anything is. -/
def fault? : Segment → Option Fault
  | stray c => some (.unexpectedCharacter c)
  | openString _ => some .unterminatedString
  | _ => none

end Segment

variable {σ : Type}

namespace Sink

/-- Whatever the sink does, the tokens are those of the events. -/
theorem tokens_run (sink : Sink σ) (state : σ) (events : List Event) :
    (sink.run state events).tokens = events.filterMap Event.token? := by
  induction events generalizing state with
  | nil => rfl
  | cons event rest ih =>
      change event.token?.toList ++ (sink.run _ rest).tokens = _
      rw [ih, List.filterMap_cons]
      cases event.token? <;> rfl

/-- The state of a sink that has been told of diagnostics. -/
def told (sink : Sink σ) (state : σ) (diagnostics : List Diagnostic) : σ :=
  diagnostics.foldl (fun state diagnostic => (sink.report diagnostic state).1) state

/-- The sink is told of each diagnostic once, in the order of the events. -/
theorem sink_run (sink : Sink σ) (state : σ) (events : List Event) :
    (sink.run state events).sink = sink.told state (events.filterMap Event.diagnostic?) := by
  induction events generalizing state with
  | nil => rfl
  | cons event rest ih =>
      change (sink.run (sink.take state event).1 rest).sink = _
      rw [ih, List.filterMap_cons]
      unfold take
      cases event.diagnostic? <;> rfl

/-- The collecting sink adds what it is told to what it has. -/
theorem told_collecting (collected diagnostics : List Diagnostic) :
    collecting.told collected diagnostics = collected ++ diagnostics := by
  change List.foldl (fun state diagnostic => state ++ [diagnostic]) collected diagnostics = _
  rw [List.foldl_append_eq_append, ← List.flatMap_def, List.flatMap_singleton']

/-- The collecting sink has the diagnostics of all events in the end. -/
theorem sink_run_collecting (collected : List Diagnostic) (events : List Event) :
    (collecting.run collected events).sink =
      collected ++ events.filterMap Event.diagnostic? := by
  rw [sink_run, told_collecting]

end Sink

/-- The tokens of a scan are those of its events, whatever the sink. -/
theorem tokens_scanWith (sink : Sink σ) (state : σ) (source : String) :
    (scanWith sink state source).tokens = (Event.ofSource source).filterMap Event.token? :=
  sink.tokens_run state _

theorem sink_scanWith_collecting (source : String) :
    (scanWith .collecting [] source).sink =
      (Event.ofSource source).filterMap Event.diagnostic? :=
  Sink.sink_run_collecting [] _

/-- A source with nothing to report scans to the tokens that any sink would see. -/
theorem scan_of_clean (sink : Sink σ) (state : σ) {source : String}
    (clean : (scanWith .collecting [] source).sink = []) :
    (scan source).1 = .ok (scanWith sink state source).tokens := by
  rw [tokens_scanWith, ← tokens_scanWith .collecting []]
  unfold scan
  simp only [clean]

/-- A scan with a diagnostic gives the diagnostics in place of the tokens. -/
theorem scan_of_faulty {source : String} (faulty : (scanWith .collecting [] source).sink ≠ []) :
    (scan source).1 = .error (scanWith .collecting [] source).sink := by
  obtain ⟨first, rest, reported⟩ := List.exists_cons_of_ne_nil faulty
  unfold scan
  simp only [reported]

namespace Event

/-- What is the same on every line is read off the segments, one by one, and off the end. -/
theorem map_filterMap_ofSegments {α β : Type} {read : Event → Option α} {keep : α → β}
    {told : Segment → Option β} {last : List β}
    (each : ∀ line segment, ((segment.event? line).bind read).map keep = told segment)
    (ending : ∀ line, [ended line].filterMap (fun event => (read event).map keep) = last)
    (line : Nat) (segments : List Segment) :
    ((ofSegments line segments).filterMap read).map keep = segments.filterMap told ++ last := by
  rw [List.map_filterMap]
  induction segments generalizing line with
  | nil => exact ending line
  | cons segment rest ih =>
      rw [ofSegments, List.filterMap_append, ih, List.filterMap_cons, ← each line segment]
      cases segment.event? line with
      | none => rfl
      | some event =>
          rw [Option.toList_some, List.filterMap_cons, Option.bind_some]
          cases read event <;> rfl

/-- Lines aside, the tokens met in a list of segments are those of its lexemes, and the end. -/
theorem map_content_ofSegments (line : Nat) (segments : List Segment) :
    ((ofSegments line segments).filterMap token?).map Token.content =
      segments.filterMap Segment.content? ++ [.eof] := by
  apply map_filterMap_ofSegments
  · intro line segment
    cases segment <;> rfl
  · intro line
    rfl

/-- Lines aside, the diagnostics of a list of segments are its faults. -/
theorem map_fault_ofSegments (line : Nat) (segments : List Segment) :
    ((ofSegments line segments).filterMap diagnostic?).map Diagnostic.fault =
      segments.filterMap Segment.fault? := by
  rw [← List.append_nil (segments.filterMap Segment.fault?)]
  apply map_filterMap_ofSegments
  · intro line segment
    cases segment <;> rfl
  · intro line
    rfl

theorem file_of_diagnostic? {event : Event} {diagnostic : Diagnostic}
    (found : event.diagnostic? = some diagnostic) : diagnostic.file = none := by
  cases event <;> cases found <;> rfl

end Event

/-- The diagnostics that a scan collects have no file. -/
theorem file_of_mem_scanWith {source : String} {diagnostic : Diagnostic}
    (found : diagnostic ∈ (scanWith .collecting [] source).sink) : diagnostic.file = none := by
  rw [sink_scanWith_collecting] at found
  obtain ⟨event, -, made⟩ := List.mem_filterMap.mp found
  exact Event.file_of_diagnostic? made

/-- Lines aside, the tokens of a scan are what its segments contain. -/
theorem map_content_scanWith (sink : Sink σ) (state : σ) (source : String) :
    (scanWith sink state source).tokens.map Token.content =
      (Segment.ofSource source.toList).filterMap Segment.content? ++ [.eof] := by
  rw [tokens_scanWith]
  exact Event.map_content_ofSegments 1 _

/-- Lines aside, the diagnostics of a scan are the faults of its segments. -/
theorem map_fault_scanWith (source : String) :
    (scanWith .collecting [] source).sink.map Diagnostic.fault =
      (Segment.ofSource source.toList).filterMap Segment.fault? := by
  rw [sink_scanWith_collecting]
  exact Event.map_fault_ofSegments 1 _

end LoxLexer
