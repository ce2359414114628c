import Mathlib.Data.List.DropRight
import LoxLexer.Proofs.Scan.Placed

/-! # Stability under more text

What a scan makes of a segment depends on no more than two characters behind it. So more text at the
end of a source can only change the last segment, or a numeral and the point behind it, and every
token but the last two comes out as before (`scanWith_prefix`). -/

namespace LoxLexer

namespace Segment

/-- Segments at the end of a source that more text can change: the last one, unless it is a stray
character, or a numeral with a point behind it. -/
inductive Unsettled : List Segment → Prop
  | nil : Unsettled []
  | last (segment : Segment) (not_stray : ∀ c, segment ≠ stray c) : Unsettled [segment]
  | point (numeral : Numeral) :
      Unsettled [lexeme (.number numeral), lexeme (.punctuator .dot)]

/-- More text changes two segments at most. -/
theorem Unsettled.length_le {segments : List Segment} (unsettled : Unsettled segments) :
    segments.length ≤ 2 := by
  cases unsettled <;> simp

theorem ofSource_point : ofSource ['.'] = [lexeme (.punctuator .dot)] := by
  rw [ofSource_eq_iff]
  exact ⟨rfl, trivial, endsBefore_nil _, trivial⟩

/-- If more text gives a segment something that belongs to it, then no more than a point is behind
it. -/
theorem IsCut.unsettled {segment : Segment} {rest : List Segment} {later : List Char}
    (cut : IsCut (segment :: rest))
    (changed : ¬ segment.EndsBefore (rest.flatMap text ++ later)) :
    Unsettled (segment :: rest) := by
  obtain ⟨-, ends, cut⟩ := cut
  have not_stray : ∀ c, segment ≠ stray c := by
    rintro c rfl
    exact changed trivial
  by_cases nothing : rest.flatMap text = []
  · obtain rfl := cut.eq_nil_of_text nothing
    exact .last segment not_stray
  by_cases point : rest.flatMap text = ['.']
  · have same := ofSource_flatMap_text cut
    rw [point, ofSource_point] at same
    subst same
    rw [point] at ends changed
    cases segment with
    | lexeme piece =>
        cases piece with
        | number numeral => exact .point numeral
        | punctuator mark => exact (changed ⟨ends.equal, ends.slash⟩).elim
        | _ => exact (changed ends).elim
    | openString body => cases ends
    | _ => exact (changed ends).elim
  · exact (changed (ends.append nothing point later)).elim

/-- More text leaves a cut as it is, up to where it is unsettled. -/
theorem IsCut.exists_settled {segments : List Segment} (cut : IsCut segments) (later : List Char) :
    ∃ settled unsettled, segments = settled ++ unsettled ∧ Unsettled unsettled ∧
      settled <+: ofSource (segments.flatMap text ++ later) := by
  induction segments with
  | nil => exact ⟨[], [], rfl, .nil, List.nil_prefix⟩
  | cons segment rest ih =>
      by_cases ends : segment.EndsBefore (rest.flatMap text ++ later)
      · obtain ⟨settled, unsettled, rfl, loose, begins⟩ := ih cut.2.2
        refine ⟨segment :: settled, unsettled, rfl, loose, ?_⟩
        rw [List.flatMap_cons, List.append_assoc, ofSource_append cut.1 ends]
        exact List.cons_prefix_cons.mpr ⟨rfl, begins⟩
      · exact ⟨[], segment :: rest, rfl, cut.unsettled ends, List.nil_prefix⟩

end Segment

namespace Placed

theorem length_ofSegments (before : List Char) (segments : List Segment) :
    (ofSegments before segments).length = segments.length := by
  rw [← List.length_map Placed.segment, map_segment_ofSegments]

/-- The places of a source are those of its extensions, up to where they are unsettled. -/
theorem exists_settled (source later : String) :
    ∃ settled before unsettled, Placed.ofSource source = settled ++ ofSegments before unsettled ∧
      Segment.Unsettled unsettled ∧ settled <+: Placed.ofSource (source ++ later) := by
  have cut := Segment.isCut_ofSource source.toList
  obtain ⟨settled, unsettled, whole, loose, rest, extended⟩ := cut.exists_settled later.toList
  rw [Segment.flatMap_text_ofSource, ← String.toList_append] at extended
  unfold ofSource
  rw [whole, ← extended, ofSegments_append, ofSegments_append]
  exact ⟨_, _, unsettled, rfl, loose, List.prefix_append _ _⟩

end Placed

/-- The diagnostics without the last, if that reports a string that is never closed. -/
def withoutOpenString (diagnostics : List Diagnostic) : List Diagnostic :=
  if diagnostics.getLast?.map Diagnostic.fault = some .unterminatedString then diagnostics.dropLast
  else diagnostics

/-- All diagnostics but that of an open string come first. -/
theorem withoutOpenString_prefix (diagnostics : List Diagnostic) :
    withoutOpenString diagnostics <+: diagnostics := by
  unfold withoutOpenString
  split
  · exact List.dropLast_prefix _
  · exact List.prefix_rfl

/-- What is unsettled reports nothing but a string that is never closed. -/
theorem withoutOpenString_append_unsettled (diagnostics : List Diagnostic) (before : List Char)
    {segments : List Segment} (unsettled : Segment.Unsettled segments) :
    withoutOpenString (diagnostics ++
      (Placed.ofSegments before segments).filterMap Placed.diagnostic?) <+: diagnostics := by
  have clean (reported : List Diagnostic) (none : reported = []) :
      withoutOpenString (diagnostics ++ reported) <+: diagnostics := by
    rw [none, List.append_nil]
    exact withoutOpenString_prefix diagnostics
  cases unsettled with
  | nil => exact clean _ rfl
  | point numeral => exact clean _ rfl
  | last segment not_stray =>
      cases segment with
      | stray c => exact (not_stray c rfl).elim
      | openString body =>
          simp [Placed.ofSegments, Placed.diagnostic?, Placed.event?, Segment.event?,
            Event.diagnostic?, withoutOpenString]
      | _ => exact clean _ rfl

/-- However a source goes on, the tokens of its scan but the last two and the end are the first that
a scan of the whole gives, and so are its diagnostics but that of a string that is never closed. One
token less is not enough: a digit behind `x 1.` changes two. -/
theorem scanWith_prefix (source later : String) :
    (scanWith .collecting [] source).tokens.dropLast.rdrop 2 <+:
        (scanWith .collecting [] (source ++ later)).tokens ∧
      withoutOpenString (scanWith .collecting [] source).sink <+:
        (scanWith .collecting [] (source ++ later)).sink ∧
      ¬ (scanWith .collecting [] "x 1.").tokens.dropLast.rdrop 1 <+:
        (scanWith .collecting [] ("x 1." ++ "5")).tokens := by
  obtain ⟨settled, before, unsettled, whole, loose, extended⟩ :=
    Placed.exists_settled source later
  refine ⟨?_, ?_, by decide +kernel⟩
  · rw [tokens_scanWith_eq_placed, tokens_scanWith_eq_placed, List.dropLast_concat, whole,
      List.filterMap_append]
    have few : ((Placed.ofSegments before unsettled).filterMap Placed.token?).length ≤ 2 := by
      have fewer := List.length_filterMap_le Placed.token? (Placed.ofSegments before unsettled)
      rw [Placed.length_ofSegments] at fewer
      exact fewer.trans loose.length_le
    have kept : (settled.filterMap Placed.token? ++
        (Placed.ofSegments before unsettled).filterMap Placed.token?).rdrop 2 <+:
          settled.filterMap Placed.token? := by
      rw [List.rdrop]
      apply List.prefix_of_prefix_length_le (List.take_prefix _ _) (List.prefix_append _ _)
      rw [List.length_take, List.length_append]
      omega
    exact (kept.trans (extended.filterMap Placed.token?)).trans (List.prefix_append _ _)
  · rw [sink_scanWith_eq_placed, sink_scanWith_eq_placed, whole, List.filterMap_append]
    exact (withoutOpenString_append_unsettled _ before loose).trans
      (extended.filterMap Placed.diagnostic?)

end LoxLexer
