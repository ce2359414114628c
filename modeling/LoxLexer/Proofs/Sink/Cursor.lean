import LoxLexer.Proofs.Cursor.Safety
import LoxLexer.Scan.Basic

/-! # A sink in the hands of a cursor

A cursor can hand what it meets to a sink at once: a token joins those before it, a diagnostic is
reported where it is found, and what is shown is shown there and then. At the end of the source this
has left what is left by a sink that takes the events of the whole source (`Cursor.scans_iff`). -/

namespace LoxLexer
variable {σ : Type}

namespace Sink

/-- What has been left so far, and one more event. -/
def hand (sink : Sink σ) (left : Scan σ) (event : Event) : Scan σ :=
  let taken := sink.take left.sink event
  ⟨left.tokens ++ event.token?.toList, taken.1, left.emissions ++ taken.2⟩

/-- Handing over events one by one leaves what a run over all of them does, behind what there was
before. -/
theorem foldl_hand (sink : Sink σ) (left : Scan σ) (events : List Event) :
    events.foldl sink.hand left =
      ⟨left.tokens ++ (sink.run left.sink events).tokens, (sink.run left.sink events).sink,
        left.emissions ++ (sink.run left.sink events).emissions⟩ := by
  induction events generalizing left with
  | nil =>
      unfold run
      rw [List.foldl_nil, List.append_nil, List.append_nil]
  | cons event rest ih =>
      unfold run
      rw [List.foldl_cons, ih, hand, List.append_assoc, List.append_assoc]

end Sink

/-- What is there when a scan of the source begins. -/
def Scan.opened (state : σ) (source : String) : Scan σ :=
  ⟨[], state, [.log (openingRecord source)]⟩

namespace Cursor

/-- A cursor that goes over the source and hands what it meets to the sink leaves this at the
end. -/
def Scans (sink : Sink σ) (state : σ) (source : String) (left : Scan σ) : Prop :=
  ∃ segments cursor, Reached source sink.hand (.opened state source) segments cursor ∧
    cursor.current = source.utf8ByteSize ∧ left = sink.hand cursor.met (.ended cursor.line)

/-- A scan by a cursor with the sink in its hands ends, and leaves what a scan into the sink does
and nothing else. -/
theorem scans_iff {sink : Sink σ} {state : σ} {source : String} {left : Scan σ} :
    Scans sink state source left ↔ left = scanWith sink state source := by
  have whole : (Event.ofSource source).foldl sink.hand (.opened state source) =
      scanWith sink state source :=
    sink.foldl_hand _ _
  constructor
  · rintro ⟨segments, cursor, reached, ending, rfl⟩
    exact (reached.hand_ended ending).trans whole
  · rintro rfl
    obtain ⟨segments, cursor, reached, -, ending⟩ :=
      exists_reached_end source sink.hand (.opened state source)
    exact ⟨segments, cursor, reached, ending, (reached.hand_ended ending).trans whole |>.symm⟩

end Cursor

end LoxLexer
