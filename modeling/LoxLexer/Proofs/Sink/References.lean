import LoxLexer.Proofs.Scan.Run
import LoxLexer.Proofs.Sink.Cursor

/-! # Sinks behind references

A sink is only told what is wrong: whichever it is, the tokens of a scan are the same and it is
given the same diagnostics in the same order. A sink can also be told through a reference to where
its state is kept, or through references one behind the other. A scan then leaves in that place what
it would leave in the sink, and nothing else is touched (`Sink.scanWith_through`). -/

namespace LoxLexer

/-- A reference into a store: how what it refers to is read there and replaced. -/
structure Reference (τ σ : Type) where
  read : τ → σ
  replace : σ → τ → τ
  read_replace : ∀ value store, read (replace value store) = value
  replace_read : ∀ store, replace (read store) store = store
  replace_replace : ∀ value earlier store,
    replace value (replace earlier store) = replace value store

/-- References one behind the other, from a store to what the last of them refers to. -/
inductive References (σ : Type) : Type → Type 1 where
  | here : References σ σ
  | through {τ υ : Type} (reference : Reference τ υ) (later : References σ υ) : References σ τ

namespace References
variable {σ τ : Type}

def read {τ : Type} : References σ τ → τ → σ
  | here, store => store
  | through reference later, store => later.read (reference.read store)

def replace {τ : Type} : References σ τ → σ → τ → τ
  | here, value, _ => value
  | through reference later, value, store =>
    reference.replace (later.replace value (reference.read store)) store

end References

namespace Sink
variable {σ τ : Type}

/-- The sink whose state is kept where a reference leads. -/
def borrowed (sink : Sink σ) (reference : Reference τ σ) : Sink τ where
  report diagnostic store :=
    let reported := sink.report diagnostic (reference.read store)
    (reference.replace reported.1 store, reported.2)

/-- The sink whose state is kept where references lead, each behind the one before. -/
def through (sink : Sink σ) {τ : Type} : References σ τ → Sink τ
  | .here => sink
  | .through reference later => (sink.through later).borrowed reference

/-- An event changes the store as it changes the sink that is kept there. -/
theorem take_borrowed (sink : Sink σ) (reference : Reference τ σ) (store : τ) (event : Event) :
    (sink.borrowed reference).take store event =
      (reference.replace (sink.take (reference.read store) event).1 store,
        (sink.take (reference.read store) event).2) := by
  unfold take
  cases event.diagnostic? with
  | none => rw [reference.replace_read]
  | some diagnostic => rfl

/-- A run changes the store as it changes the sink that is kept there. -/
theorem run_borrowed (sink : Sink σ) (reference : Reference τ σ) (store : τ)
    (events : List Event) :
    (sink.borrowed reference).run store events =
      ⟨(sink.run (reference.read store) events).tokens,
        reference.replace (sink.run (reference.read store) events).sink store,
        (sink.run (reference.read store) events).emissions⟩ := by
  induction events generalizing store with
  | nil =>
      unfold run
      rw [reference.replace_read]
  | cons event rest ih =>
      -- What one event leaves at the reference is what the rest of the run finds there.
      unfold run
      simp only [take_borrowed, ih, reference.read_replace, reference.replace_replace]

/-- A scan changes the store as it changes the sink that is kept there. -/
theorem scanWith_borrowed (sink : Sink σ) (reference : Reference τ σ) (store : τ)
    (source : String) :
    scanWith (sink.borrowed reference) store source =
      ⟨(scanWith sink (reference.read store) source).tokens,
        reference.replace (scanWith sink (reference.read store) source).sink store,
        (scanWith sink (reference.read store) source).emissions⟩ := by
  unfold scanWith
  rw [run_borrowed]

/-- Behind any number of references a scan does to the state it finds there what it would do to
that state, shows the same, and finds the same tokens. -/
theorem scanWith_through (sink : Sink σ) (references : References σ τ) (store : τ)
    (source : String) :
    scanWith (sink.through references) store source =
      ⟨(scanWith sink (references.read store) source).tokens,
        references.replace (scanWith sink (references.read store) source).sink store,
        (scanWith sink (references.read store) source).emissions⟩ := by
  induction references with
  | here => rfl
  | through reference later ih =>
      change scanWith ((sink.through later).borrowed reference) store source = _
      rw [scanWith_borrowed, ih]
      rfl

/-- The state that a scan leaves in a sink is that of a sink told of the diagnostics that the same
scan collects. -/
theorem sink_scanWith (sink : Sink σ) (state : σ) (source : String) :
    (scanWith sink state source).sink =
      sink.told state (scanWith .collecting [] source).sink := by
  rw [sink_scanWith_collecting]
  exact sink.sink_run state _

/-- A collection that takes a scan only grows at its end. -/
theorem sink_scanWith_append (collected : List Diagnostic) (source : String) :
    (scanWith .collecting collected source).sink =
      collected ++ (scanWith .collecting [] source).sink := by
  rw [sink_scanWith, told_collecting]

/-- Scans into one sink, one after the other, tell it of what each of them finds, in their order. -/
theorem foldl_scanWith (sink : Sink σ) (state : σ) (sources : List String) :
    sources.foldl (fun state source => (scanWith sink state source).sink) state =
      sink.told state (sources.flatMap fun source => (scanWith .collecting [] source).sink) := by
  simp only [sink_scanWith sink, told, List.foldl_flatMap]

end Sink

/-- A sink is only told. A cursor that goes over the source with the sink in its hands, and reports
where it finds something wrong, leaves the scan into the sink. Whatever the sink does with what it
is told, the tokens are those found by collecting, and the sink is told once of each diagnostic that
is collected, in order. So a collection only grows at its end, a sink behind references is told as
the sink itself would be, and one that takes several scans is told of the diagnostics of each scan
in turn. -/
theorem scanWith_told {σ : Type} (sink : Sink σ) (state : σ) (source : String) :
    (∀ left, Cursor.Scans sink state source left ↔ left = scanWith sink state source) ∧
      (scanWith sink state source).tokens = (scanWith .collecting [] source).tokens ∧
      (scanWith sink state source).sink =
        sink.told state (scanWith .collecting [] source).sink ∧
      (∀ collected, (scanWith .collecting collected source).sink =
        collected ++ (scanWith .collecting [] source).sink) ∧
      (∀ (τ : Type) (references : References σ τ) (store : τ),
        scanWith (sink.through references) store source =
          ⟨(scanWith sink (references.read store) source).tokens,
            references.replace (scanWith sink (references.read store) source).sink store,
            (scanWith sink (references.read store) source).emissions⟩) ∧
      ∀ sources : List String,
        sources.foldl (fun state source => (scanWith sink state source).sink) state =
          sink.told state
            (sources.flatMap fun source => (scanWith .collecting [] source).sink) := by
  refine ⟨fun _ => Cursor.scans_iff, ?_, sink.sink_scanWith state source, ?_, ?_,
    sink.foldl_scanWith state⟩
  · rw [tokens_scanWith, tokens_scanWith]
  · intro collected
    exact Sink.sink_scanWith_append collected source
  · intro τ references store
    exact sink.scanWith_through references store source

end LoxLexer
