import LoxLexer.Proofs.Scan.Run
import LoxLexer.Proofs.Source.Cut

/-! # Placed segments

A segment of a source with the text before it. What a scan meets is determined, segment by segment,
by that text alone: it is what the running count of lines amounts to
(`Event.ofSource_eq_placed`). -/

namespace LoxLexer

/-- The token is one that a proper lexeme makes. -/
def Token.IsLexical (token : Token) : Prop :=
  ∃ piece : Lexeme, piece.IsProper ∧ token = piece.token token.line

/-- A segment with the text of the source before it. -/
structure Placed where
  before : List Char
  segment : Segment
  deriving DecidableEq, Repr

namespace Placed

/-- The segments that follow a text, each with all the text before it. -/
def ofSegments : List Char → List Segment → List Placed
  | _, [] => []
  | before, segment :: rest => ⟨before, segment⟩ :: ofSegments (before ++ segment.text) rest

/-- The segments of a source in their places. -/
def ofSource (source : String) : List Placed :=
  ofSegments [] (Segment.ofSource source.toList)

/-- The line that the segment begins on. -/
def line (placed : Placed) : Nat :=
  1 + placed.before.count '\n'

/-- What a scan meets at the place. -/
def event? (placed : Placed) : Option Event :=
  placed.segment.event? placed.line

def token? (placed : Placed) : Option Token :=
  placed.event?.bind Event.token?

def diagnostic? (placed : Placed) : Option Diagnostic :=
  placed.event?.bind Event.diagnostic?

theorem map_segment_ofSegments (before : List Char) (segments : List Segment) :
    (ofSegments before segments).map segment = segments := by
  induction segments generalizing before with
  | nil => rfl
  | cons segment rest ih => exact congrArg (segment :: ·) (ih _)

/-- Every place has one of the given segments. -/
theorem segment_mem_of_mem_ofSegments {before : List Char} {segments : List Segment}
    {placed : Placed} (member : placed ∈ ofSegments before segments) :
    placed.segment ∈ segments := by
  have segment := List.mem_map_of_mem (f := Placed.segment) member
  rwa [map_segment_ofSegments] at segment

/-- The places of the second of two lists have the text of the first before them. -/
theorem ofSegments_append (before : List Char) (first second : List Segment) :
    ofSegments before (first ++ second) =
      ofSegments before first ++ ofSegments (before ++ first.flatMap Segment.text) second := by
  induction first generalizing before with
  | nil => simp [ofSegments]
  | cons segment rest ih => simp [ofSegments, ih]

/-- All places have the given text before them. -/
theorem before_prefix_of_mem_ofSegments {before : List Char} {segments : List Segment}
    {placed : Placed} (member : placed ∈ ofSegments before segments) :
    before <+: placed.before := by
  induction segments generalizing before with
  | nil => cases member
  | cons segment rest ih =>
      rcases List.mem_cons.mp member with rfl | later
      · exact List.prefix_rfl
      · exact (List.prefix_append before segment.text).trans (ih later)

/-- The text before a place and the text of its segment begin the whole text. -/
theorem prefix_of_mem_ofSegments {before : List Char} {segments : List Segment} {placed : Placed}
    (member : placed ∈ ofSegments before segments) :
    placed.before ++ placed.segment.text <+: before ++ segments.flatMap Segment.text := by
  induction segments generalizing before with
  | nil => cases member
  | cons segment rest ih =>
      rw [List.flatMap_cons, ← List.append_assoc]
      rcases List.mem_cons.mp member with rfl | later
      · exact List.prefix_append _ _
      · exact ih later

end Placed

namespace Event

/-- What a scan meets from line to line is what it meets at the places. -/
theorem ofSegments_eq_placed (before : List Char) (segments : List Segment) :
    ofSegments (1 + before.count '\n') segments =
      (Placed.ofSegments before segments).filterMap Placed.event? ++
        [ended (1 + (before ++ segments.flatMap Segment.text).count '\n')] := by
  induction segments generalizing before with
  | nil =>
      rw [List.flatMap_nil, List.append_nil]
      rfl
  | cons segment rest ih =>
      have line : 1 + before.count '\n' + segment.newlines =
          1 + (before ++ segment.text).count '\n' := by
        rw [List.count_append, Segment.newlines, Nat.add_assoc]
      unfold ofSegments Placed.ofSegments
      rw [line, ih (before ++ segment.text), List.filterMap_cons, List.flatMap_cons,
        List.append_assoc before]
      unfold Placed.event? Placed.line
      cases segment.event? (1 + before.count '\n') <;> rfl

/-- A scan meets what is at each place of the source, on the line that the text before the place
ends on, and at last the end. -/
theorem ofSource_eq_placed (source : String) :
    ofSource source =
      (Placed.ofSource source).filterMap Placed.event? ++
        [ended (1 + source.toList.count '\n')] := by
  have events := ofSegments_eq_placed [] (Segment.ofSource source.toList)
  rw [List.nil_append, Segment.flatMap_text_ofSource] at events
  exact events

end Event

variable {σ : Type}

/-- The tokens of a scan are those at the places, and the end. -/
theorem tokens_scanWith_eq_placed (sink : Sink σ) (state : σ) (source : String) :
    (scanWith sink state source).tokens =
      (Placed.ofSource source).filterMap Placed.token? ++
        [.eof (1 + source.toList.count '\n')] := by
  rw [tokens_scanWith, Event.ofSource_eq_placed, List.filterMap_append, List.filterMap_filterMap]
  rfl

theorem sink_scanWith_eq_placed (source : String) :
    (scanWith .collecting [] source).sink =
      (Placed.ofSource source).filterMap Placed.diagnostic? := by
  rw [sink_scanWith_collecting, Event.ofSource_eq_placed, List.filterMap_append,
    List.filterMap_filterMap]
  exact List.append_nil _

theorem Lexeme.toList_lexeme_token (piece : Lexeme) (line : Nat) :
    (piece.token line).lexeme.toList = piece.text :=
  String.toList_ofList

theorem Lexeme.kind_word (letters : List Char) :
    (word letters).kind =
      (Keyword.ofSpelling? (String.ofList letters)).elim .identifier .keyword :=
  rfl

theorem Lexeme.kind_ne_eof (piece : Lexeme) : piece.kind ≠ .eof := by
  cases piece with
  | word letters =>
      rw [kind_word]
      cases Keyword.ofSpelling? (String.ofList letters) <;> nofun
  | _ => nofun

namespace Placed

/-- The segments of a source are proper. -/
theorem isProper_of_mem_ofSource {source : String} {placed : Placed}
    (member : placed ∈ ofSource source) : placed.segment.IsProper :=
  (Segment.isCut_ofSource source.toList).isProper _ (segment_mem_of_mem_ofSegments member)

/-- The places with a token are those of lexemes. -/
theorem token?_eq_some_iff {placed : Placed} {token : Token} :
    placed.token? = some token ↔
      ∃ piece, placed.segment = .lexeme piece ∧ token = piece.token placed.line := by
  obtain ⟨before, segment⟩ := placed
  constructor
  · intro made
    cases segment with
    | lexeme piece => exact ⟨piece, rfl, (Option.some.inj made).symm⟩
    | _ => cases made
  · intro found
    obtain ⟨piece, lexeme, same⟩ := found
    subst lexeme same
    rfl

/-- Every token but the last is that of a proper lexeme. -/
theorem isLexical_of_token? {source : String} {token : Token}
    (member : token ∈ (ofSource source).filterMap token?) : token.IsLexical := by
  obtain ⟨placed, place, made⟩ := List.mem_filterMap.mp member
  obtain ⟨piece, lexeme, rfl⟩ := token?_eq_some_iff.mp made
  have proper := isProper_of_mem_ofSource place
  rw [lexeme] at proper
  exact ⟨piece, proper, rfl⟩

end Placed

/-- The token is in the scan of some source. -/
def Token.IsScanned (token : Token) : Prop :=
  ∃ (σ : Type) (sink : Sink σ) (state : σ) (source : String),
    token ∈ (scanWith sink state source).tokens

/-- A token of a scan is that of a proper lexeme, or stands for the end of the source. -/
theorem Token.IsScanned.isLexical_or_eq_eof {token : Token} (scanned : token.IsScanned) :
    token.IsLexical ∨ token = .eof token.line := by
  obtain ⟨σ, sink, state, source, member⟩ := scanned
  rw [tokens_scanWith_eq_placed] at member
  rcases List.mem_append.mp member with placed | last
  · exact .inl (Placed.isLexical_of_token? placed)
  · obtain rfl := List.mem_singleton.mp last
    exact .inr rfl

/-! ## A lexeme alone -/

/-- A source that is one lexeme is one token. -/
theorem scan_lexeme {piece : Lexeme} (proper : piece.IsProper) :
    (scan (String.ofList piece.text)).1 =
      .ok [piece.token 1, .eof (1 + piece.text.count '\n')] := by
  have segment : Segment.ofSource (String.ofList piece.text).toList = [.lexeme piece] := by
    rw [String.toList_ofList, Segment.ofSource_eq_iff]
    exact ⟨List.append_nil _, proper, Segment.endsBefore_nil _, trivial⟩
  have events : Event.ofSource (String.ofList piece.text) =
      [.token (piece.token 1), .ended (1 + piece.text.count '\n')] := by
    unfold Event.ofSource
    rw [segment]
    rfl
  have clean : (scanWith .collecting [] (String.ofList piece.text)).sink = [] := by
    rw [sink_scanWith_collecting, events]
    rfl
  rw [scan_of_clean .collecting [] clean, tokens_scanWith, events]
  rfl

end LoxLexer
