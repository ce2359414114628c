import LoxLexer.Proofs.Cursor.Segments

/-! # Safety of the cursor

A cursor that is about to cut stands between two segments, has met what there is to meet in those
before it, and will go over the next one without a breach (`Cursor.Sound.step`). So every scan by a
cursor ends, it ends at the end of the source, and it meets what the scan by segments meets. That is
so whatever is made of what is met; where it is gathered in a list, the list tells that every number
had the text of a numeral (`Cursor.reached_isSafe`). -/

namespace LoxLexer

namespace Cursor
variable {ρ : Type}

/-- The token has the text of a numeral: digits, or digits around a point. -/
def IsNumeral (token : Token) : Prop :=
  ∃ numeral : Numeral, numeral.IsProper ∧ token.lexeme = String.ofList numeral.text

/-- What is so after a number of segments, between two parts of the source: what is left to meet
makes of what has been met what the whole source makes of what was there at first. -/
structure Sound (source : String) (hand : ρ → Event → ρ) (origin : ρ) (segments : Nat)
    (cursor : Cursor ρ) (before rest : List Char) : Prop where
  stands : Stands source cursor before rest
  segments_le : segments ≤ cursor.current
  met : (Event.ofSegments cursor.line (Segment.ofSource rest)).foldl hand cursor.met =
    (Event.ofSource source).foldl hand origin

/-- Inside the source, between characters, on a line that there is room for. -/
structure IsSafe (source : String) (cursor : Cursor ρ) : Prop where
  within : cursor.current ≤ source.utf8ByteSize
  boundary : IsBoundary source cursor.current
  line : cursor.line ≤ source.utf8ByteSize + 1

variable {source : String} {hand : ρ → Event → ρ} {origin : ρ} {segments : Nat} {cursor : Cursor ρ}
  {before rest : List Char}

/-- A cursor between two parts of the source is safe. -/
theorem Stands.isSafe (stands : Stands source cursor before rest) : IsSafe source cursor where
  within := stands.between.le_utf8ByteSize
  boundary := stands.between.isBoundary
  line := by
    have room : cursor.line + ([] : List Char).count '\n' ≤ source.utf8ByteSize + 1 :=
      stands.line_le
    exact room

/-- A cursor is not at the end if and only if something is left of the source. -/
theorem Stands.atEnd_eq_false_iff (stands : Stands source cursor before rest) :
    atEnd source cursor = false ↔ rest ≠ [] := by
  rw [Bool.eq_false_iff, ne_eq, atEnd_iff_of_between stands.between]

namespace Sound

/-- At the beginning nothing has been met and all is left. -/
theorem initial (source : String) (hand : ρ → Event → ρ) (origin : ρ) :
    Sound source hand origin 0 (.initial origin) [] source.toList where
  stands := ⟨⟨rfl, rfl⟩, rfl⟩
  segments_le := Nat.zero_le _
  met := rfl

/-- Behind one more segment the cursor is sound again. -/
theorem past {segment : Segment} (proper : segment.IsProper) (ends : segment.EndsBefore rest)
    (sound : Sound source hand origin segments cursor before (segment.text ++ rest)) :
    Sound source hand origin (segments + 1) (cursor.past hand segment) (before ++ segment.text)
      rest where
  stands := sound.stands.past
  segments_le := by
    have some_octets := length_encoded_pos proper.text_ne_nil
    exact Nat.add_le_add sound.segments_le some_octets
  met := by
    rw [← sound.met, Segment.ofSource_append proper ends, Event.ofSegments, List.foldl_append]
    rfl

/-- Where there is more of the source, the cursor goes over one more segment without a breach. -/
theorem step (sound : Sound source hand origin segments cursor before rest) (more : rest ≠ []) :
    ∃ segment later, segment.text ++ later = rest ∧ segment.IsProper ∧
      scanSegment source hand cursor.begun = .ok (cursor.past hand segment) ∧
      Sound source hand origin (segments + 1) (cursor.past hand segment) (before ++ segment.text)
        later := by
  obtain ⟨first, after, rfl⟩ := List.exists_cons_of_ne_nil more
  have proper := Segment.split_isProper first after
  have ends := Segment.split_endsBefore first after
  have text := Segment.text_split_append first after
  rw [← text] at sound
  exact ⟨_, _, text, proper, scanSegment_eq proper ends sound.stands, sound.past proper ends⟩

/-- At the end of the source only the end is left to meet. -/
theorem hand_ended (sound : Sound source hand origin segments cursor before []) :
    hand cursor.met (.ended cursor.line) = (Event.ofSource source).foldl hand origin := by
  have met := sound.met
  rwa [Segment.ofSource] at met

end Sound

/-! ## Runs -/

/-- A cursor is sound wherever it comes to. -/
theorem Reached.sound (reached : Reached source hand origin segments cursor) :
    ∃ before rest, Sound source hand origin segments cursor before rest := by
  induction reached with
  | start => exact ⟨_, _, Sound.initial source hand origin⟩
  | step reached more scanned ih =>
      obtain ⟨before, rest, sound⟩ := ih
      obtain ⟨segment, later, -, -, went, behind⟩ :=
        sound.step (sound.stands.atEnd_eq_false_iff.mp more)
      rw [went] at scanned
      cases scanned
      exact ⟨_, _, behind⟩

/-- From wherever the cursor is, it comes to the end of the source. -/
theorem Reached.exists_atEnd (reached : Reached source hand origin segments cursor)
    (sound : Sound source hand origin segments cursor before rest) :
    ∃ all last whole, Reached source hand origin all last ∧
      Sound source hand origin all last whole [] := by
  -- Each segment takes something from the rest, so the induction is on how much is left.
  induction length : rest.length using Nat.strong_induction_on
    generalizing segments cursor before rest with
  | _ left ih =>
      by_cases more : rest = []
      · subst more
        exact ⟨_, _, _, reached, sound⟩
      · obtain ⟨segment, later, text, proper, went, behind⟩ := sound.step more
        have shorter : later.length < left := by
          rw [← length, ← text, List.length_append]
          exact Nat.lt_add_of_pos_left (List.length_pos_iff.mpr proper.text_ne_nil)
        have further := reached.step (sound.stands.atEnd_eq_false_iff.mpr more) went
        exact ih later.length shorter further behind rfl

/-- Whatever is made of what is met, a cursor comes to the end of the source in no more segments
than there are octets. -/
theorem exists_reached_end (source : String) (hand : ρ → Event → ρ) (origin : ρ) :
    ∃ segments cursor, Reached source hand origin segments cursor ∧
      segments ≤ source.utf8ByteSize ∧ cursor.current = source.utf8ByteSize := by
  obtain ⟨segments, cursor, whole, reached, sound⟩ :=
    Reached.start.exists_atEnd (Sound.initial source hand origin)
  have ending : cursor.current = source.utf8ByteSize := sound.stands.between.add_length
  refine ⟨segments, cursor, reached, ?_, ending⟩
  rw [← ending]
  exact sound.segments_le

/-- A cursor at the end of the source has made of what it met what is made of the events of the
source, one after the other. -/
theorem Reached.hand_ended (reached : Reached source hand origin segments cursor)
    (ending : cursor.current = source.utf8ByteSize) :
    hand cursor.met (.ended cursor.line) = (Event.ofSource source).foldl hand origin := by
  obtain ⟨before, rest, sound⟩ := reached.sound
  have stop : atEnd source cursor = true := decide_eq_true ending.ge
  obtain rfl := (atEnd_iff_of_between sound.stands.between).mp stop
  exact sound.hand_ended

/-! ## Numbers -/

/-- A number that is met in a proper segment has the text of a numeral. -/
theorem isNumeral_of_event? {segment : Segment} (proper : segment.IsProper) {line : Nat}
    {token : Token} (met : segment.event? line = some (.token token))
    (number : token.kind = .number) : IsNumeral token := by
  cases segment with
  | lexeme piece =>
      cases met
      cases piece with
      | number numeral => exact ⟨numeral, proper, rfl⟩
      | word letters =>
          change (Keyword.ofSpelling? (String.ofList letters)).elim _ _ = _ at number
          cases spelled : Keyword.ofSpelling? (String.ofList letters) with
          | none =>
              rw [spelled] at number
              cases number
          | some keyword =>
              rw [spelled] at number
              cases number
      | _ => cases number
  | _ => cases met

/-- An event of some segments is the end or what is met in one of them. -/
theorem exists_event?_of_mem_ofSegments {event : Event} {line : Nat} {list : List Segment}
    (member : event ∈ Event.ofSegments line list) :
    (∃ ending, event = .ended ending) ∨
      ∃ segment ∈ list, ∃ begins, segment.event? begins = some event := by
  induction list generalizing line with
  | nil => exact .inl ⟨line, List.mem_singleton.mp member⟩
  | cons segment later ih =>
      rcases List.mem_append.mp member with here | behind
      · exact .inr ⟨segment, List.mem_cons_self, line, Option.mem_toList.mp here⟩
      · rcases ih behind with ended | ⟨next, among, begins, met⟩
        · exact .inl ended
        · exact .inr ⟨next, List.mem_cons_of_mem _ among, begins, met⟩

/-- Every number among the events of a source has the text of a numeral. -/
theorem isNumeral_of_mem_ofSource {token : Token} (member : .token token ∈ Event.ofSource source)
    (number : token.kind = .number) : IsNumeral token := by
  rcases exists_event?_of_mem_ofSegments member with ⟨_, ended⟩ | ⟨segment, among, line, met⟩
  · cases ended
  · have proper := (Segment.isCut_ofSource source.toList).isProper segment among
    exact isNumeral_of_event? proper met number

/-! ## Gathering what is met -/

/-- Appends an event to those met. -/
def gather (met : List Event) (event : Event) : List Event :=
  met ++ [event]

/-- Gathering events appends them in order. -/
theorem foldl_gather (met events : List Event) : events.foldl gather met = met ++ events := by
  induction events generalizing met with
  | nil => exact (List.append_nil met).symm
  | cons event rest ih => rw [List.foldl_cons, ih, gather, List.append_assoc, List.singleton_append]

/-- What is gathered on the way is the beginning of what there is to gather. -/
theorem Reached.met_prefix {gathering : Cursor (List Event)}
    (reached : Reached source gather [] segments gathering) :
    gathering.met <+: Event.ofSource source := by
  obtain ⟨before, rest, sound⟩ := reached.sound
  have met := sound.met
  rw [foldl_gather, foldl_gather] at met
  exact ⟨_, met⟩

/-- A scan by a cursor goes without a breach. Wherever it is about to cut, it is inside the source
and between two characters, and cutting takes it further. It comes to the end of the source in no
more segments than there are octets, and has met then what the scan by segments meets. -/
theorem reached_isSafe (source : String) :
    (∀ segments cursor, Reached source gather [] segments cursor →
      segments ≤ cursor.current ∧ IsSafe source cursor ∧
      (cursor.current < source.utf8ByteSize →
        ∃ next, scanSegment source gather cursor.begun = .ok next ∧ next.start = cursor.current ∧
          next.start < next.current ∧ IsSafe source next) ∧
      ∀ token, .token token ∈ cursor.met → token.kind = .number → IsNumeral token) ∧
    ∃ segments cursor, Reached source gather [] segments cursor ∧ segments ≤ source.utf8ByteSize ∧
      cursor.current = source.utf8ByteSize ∧
      cursor.met ++ [.ended cursor.line] = Event.ofSource source := by
  constructor
  · intro segments cursor reached
    obtain ⟨before, rest, sound⟩ := reached.sound
    refine ⟨sound.segments_le, sound.stands.isSafe, ?_, ?_⟩
    · intro within
      have more : atEnd source cursor = false := decide_eq_false (Nat.not_le.mpr within)
      obtain ⟨segment, later, -, proper, went, behind⟩ :=
        sound.step (sound.stands.atEnd_eq_false_iff.mp more)
      have some_octets := length_encoded_pos proper.text_ne_nil
      exact ⟨_, went, rfl, Nat.lt_add_of_pos_right some_octets, behind.stands.isSafe⟩
    · intro token member
      exact isNumeral_of_mem_ofSource (reached.met_prefix.subset member)
  · obtain ⟨segments, cursor, reached, few, ending⟩ := exists_reached_end source gather []
    refine ⟨segments, cursor, reached, few, ending, ?_⟩
    have met := reached.hand_ended ending
    rwa [foldl_gather, List.nil_append] at met

/-- A character of two octets that begins nothing, and a number. -/
theorem reached_isSafe_at_stray_and_number :
    (∃ next, scanSegment "é1" gather (initial []).begun = .ok next ∧ next.start = 0 ∧
      next.start < next.current ∧ IsSafe "é1" next) ∧
    ∃ segments cursor token, Reached "é1" gather [] segments cursor ∧ segments ≤ 3 ∧
      cursor.current = 3 ∧ .token token ∈ cursor.met ∧ token.kind = .number ∧ IsNumeral token := by
  obtain ⟨every, segments, cursor, reached, few, ending, met⟩ := reached_isSafe "é1"
  have within : (initial ([] : List Event)).current < "é1".utf8ByteSize := by decide
  refine ⟨(every 0 (initial []) .start).2.2.1 within, segments, cursor, ?_⟩
  have events : Event.ofSource "é1" =
      [.stray 'é' 1, .token (Lexeme.token (.number ⟨['1'], []⟩) 1)] ++ [.ended 1] := by
    decide +kernel
  rw [events] at met
  have before_end := List.append_inj_left' met rfl
  have found : .token (Lexeme.token (.number ⟨['1'], []⟩) 1) ∈ cursor.met := by simp [before_end]
  exact ⟨_, reached, few, ending, found, rfl, (every _ _ reached).2.2.2 _ found rfl⟩

end Cursor

end LoxLexer
