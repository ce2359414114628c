import Mathlib.Data.List.Basic
import LoxLexer.Proofs.Emission
import LoxLexer.Proofs.Log.Maximum
import LoxLexer.Proofs.Scan.ModeAutomaton

/-! # The log of a scan

What a scan has for the log can be told from what it finds: the length of the source, the tokens but
the strings, the string that is never closed, the end, and the number of diagnostics (`transcript`).
Only a string that is never closed is missing from the tokens, and it is the last segment, so its
record comes behind those of all tokens. In a process that has been started once, the log holds the
records of the transcript up to the level for the library (`prints_scan`). -/

namespace LoxLexer

/-- On the line a string is opened that is never closed: a quotation mark is read as in code there,
and no other comes behind it. -/
def OpensForGood (source : String) (line : Nat) : Prop :=
  ∃ before body, source.toList = before ++ '"' :: body ∧
    (Mode.code.after before).readsCode '"' = true ∧ '"' ∉ body ∧ line = 1 + before.count '\n'

/-- The record that a token leaves. -/
def Token.record (token : Token) : Log.Record :=
  .ofModule .trace "lox::scanner" (token.kind.title ++ " on line " ++ toString token.line)

/-- The record that a string leaves which is opened on the line and never closed. -/
def unclosedRecord (line : Nat) : Log.Record :=
  .ofModule .debug "lox::scanner" ("string from line " ++ toString line ++ " never closed")

/-- What there is for the log of a scan that finds these tokens and the end on a line, with a string
that is opened on a line and never closed, if there is one. -/
def transcript (bytes : Nat) (tokens : List Token) (opening : Option Nat) (ending errors : Nat) :
    List Log.Record :=
  [.ofModule .debug "lox" ("scan " ++ toString bytes ++ " bytes")] ++
    (tokens.filter fun token => token.kind ≠ .string).map Token.record ++
    opening.toList.map unclosedRecord ++
    [.ofModule .trace "lox::scanner" ("eof on line " ++ toString ending)] ++
    if errors = 0 then [] else [.ofModule .debug "lox" (toString errors ++ " errors")]

/-! ## The open string -/

namespace Mode

/-- Without a quotation mark no text leads into a string. -/
theorem after_ne_string {mode : Mode} {cs : List Char} (outside : mode ≠ string)
    (unquoted : '"' ∉ cs) : mode.after cs ≠ string := by
  induction cs generalizing mode with
  | nil => exact outside
  | cons c cs ih =>
      obtain ⟨other, others⟩ := not_or.mp (List.mem_cons.not.mp unquoted)
      apply ih _ others
      cases mode with
      | string => exact (outside rfl).elim
      | _ => grind [next, ofCode]

/-- A quotation mark leads into a string exactly where it is read as in code. -/
theorem next_quote (mode : Mode) :
    mode.next '"' = string ↔ mode.readsCode '"' = true := by
  cases mode <;> decide

/-- The end of a text is a fault exactly in a string. -/
theorem unterminatedString_mem_faults {mode : Mode} {cs : List Char} :
    .unterminatedString ∈ mode.faults cs ↔ mode.after cs = string := by
  simp [faults]

/-- The automaton ends in a string if one of the segments is never closed. -/
theorem after_flatMap_text {segments : List Segment} (cut : Segment.IsCut segments) :
    code.after (segments.flatMap Segment.text) = string ↔ ∃ body, .openString body ∈ segments := by
  rw [← unterminatedString_mem_faults, faults_flatMap_text cut, List.mem_filterMap]
  constructor
  · rintro ⟨segment, member, fault⟩
    cases segment with
    | openString body => exact ⟨body, member⟩
    | _ => cases fault
  · rintro ⟨body, member⟩
    exact ⟨_, member, rfl⟩

end Mode

/-- If a string is opened for good, the source ends in it. -/
theorem OpensForGood.after_eq_string {source : String} {line : Nat}
    (opens : OpensForGood source line) : Mode.code.after source.toList = .string := by
  obtain ⟨before, body, whole, reads, unquoted, -⟩ := opens
  rw [whole, Mode.after_append]
  change ((Mode.code.after before).next '"').after body = .string
  rw [(Mode.next_quote _).mpr reads]
  exact (Mode.run_string unquoted).1

/-- Where a source ends in a string, its last quotation mark opens the string. -/
theorem opensForGood_iff {source : String} {before body : List Char}
    (whole : source.toList = before ++ '"' :: body) (unquoted : '"' ∉ body)
    (ends : Mode.code.after source.toList = .string) {line : Nat} :
    OpensForGood source line ↔ line = 1 + before.count '\n' := by
  constructor
  · rintro ⟨other, other_body, other_whole, -, other_unquoted, rfl⟩
    have reversed := congrArg List.reverse (whole.symm.trans other_whole)
    simp only [List.reverse_append, List.reverse_cons, List.append_assoc,
      List.singleton_append] at reversed
    obtain ⟨-, same⟩ := append_cons_inj (List.mem_reverse.not.mpr unquoted)
      (List.mem_reverse.not.mpr other_unquoted) reversed
    rw [List.reverse_inj.mp same]
  · rintro rfl
    refine ⟨before, body, whole, ?_, unquoted, rfl⟩
    rw [← Mode.next_quote]
    by_contra outside
    rw [whole, Mode.after_append] at ends
    exact Mode.after_ne_string outside unquoted ends

namespace Segment

/-- Of the segments of a source only the last can be a string that is never closed. -/
theorem IsCut.exists_unclosed {segments : List Segment} (cut : IsCut segments) :
    ∃ (closed : List Segment) (unclosed : Option (List Char)),
      segments = closed ++ unclosed.toList.map openString ∧
        ∀ segment ∈ closed, ∀ body, segment ≠ openString body := by
  induction segments with
  | nil => exact ⟨[], none, rfl, List.forall_mem_nil _⟩
  | cons segment rest ih =>
      obtain ⟨-, ends, later⟩ := cut
      by_cases opened : ∃ body, segment = openString body
      · obtain ⟨body, rfl⟩ := opened
        obtain rfl := later.eq_nil_of_text ends
        exact ⟨[], some body, rfl, List.forall_mem_nil _⟩
      · obtain ⟨closed, unclosed, rfl, others⟩ := ih later
        exact ⟨segment :: closed, unclosed, rfl,
          List.forall_mem_cons.mpr ⟨fun body same => opened ⟨body, same⟩, others⟩⟩

end Segment

/-! ## Places -/

namespace Placed

/-- What is at the place for the log. -/
def record? (placed : Placed) : Option Log.Record :=
  placed.event?.bind Event.record?

section Closed
variable {before : List Char} {closed : List Segment}
  (inside : ∀ segment ∈ closed, ∀ body, segment ≠ .openString body)
include inside

/-- What is closed leaves the records of its tokens, strings excepted. -/
theorem filterMap_record?_of_closed :
    (ofSegments before closed).filterMap record? =
      (((ofSegments before closed).filterMap token?).filter fun token => token.kind ≠ .string).map
        Token.record := by
  rw [List.filter_filterMap, List.map_filterMap]
  apply List.filterMap_congr
  intro placed member
  have here := inside _ (segment_mem_of_mem_ofSegments member)
  obtain ⟨front, segment⟩ := placed
  cases segment with
  | lexeme piece =>
      change (if piece.kind = .string then none else some (piece.token _).record) =
        Option.map Token.record
          (if decide (piece.kind ≠ .string) = true then some (piece.token _) else none)
      by_cases string : piece.kind = .string
      · simp [string]
      · simp [string]
  | openString body => exact (here body rfl).elim
  | _ => rfl

/-- In what is closed no string is reported. -/
theorem filter_diagnostic?_of_closed :
    ((ofSegments before closed).filterMap diagnostic?).filter
      (fun diagnostic => diagnostic.fault = .unterminatedString) = [] := by
  rw [List.filter_eq_nil_iff]
  intro diagnostic reported
  obtain ⟨placed, member, made⟩ := List.mem_filterMap.mp reported
  have here := inside _ (segment_mem_of_mem_ofSegments member)
  obtain ⟨front, segment⟩ := placed
  cases segment with
  | stray c =>
      cases made
      simp
  | openString body => exact (here body rfl).elim
  | _ => cases made

end Closed

end Placed

/-! ## Sources that end in a string -/

section Unclosed
variable {source : String} {closed : List Segment} {unclosed : Option (List Char)}
  (whole : Segment.ofSource source.toList = closed ++ unclosed.toList.map .openString)
include whole

/-- What is read off the places of a source is read off those that are closed, and then off the
string that is never closed. -/
theorem Placed.filterMap_ofSource {α : Type} (read : Placed → Option α) :
    (Placed.ofSource source).filterMap read =
      (Placed.ofSegments [] closed).filterMap read ++
        unclosed.toList.filterMap
          fun body => read ⟨closed.flatMap Segment.text, .openString body⟩ := by
  rw [Placed.ofSource, whole, Placed.ofSegments_append, List.filterMap_append, List.nil_append]
  cases unclosed <;> rfl

/-- The records of a source are those of its tokens, strings excepted, and then that of the string
that is never closed. -/
theorem Placed.filterMap_record?_ofSource
    (inside : ∀ segment ∈ closed, ∀ body, segment ≠ .openString body) :
    (Placed.ofSource source).filterMap Placed.record? =
      (((Placed.ofSegments [] closed).filterMap Placed.token?).filter
        fun token => token.kind ≠ .string).map Token.record ++
      (unclosed.map fun _ => 1 + (closed.flatMap Segment.text).count '\n').toList.map
        unclosedRecord := by
  rw [filterMap_ofSource whole, Placed.filterMap_record?_of_closed inside]
  cases unclosed <;> rfl

/-- The source is what is closed, a quotation mark, and the body of the open string. -/
theorem toList_of_unclosed {body : List Char} (opened : unclosed = some body) :
    source.toList = closed.flatMap Segment.text ++ '"' :: body := by
  have text := Segment.flatMap_text_ofSource source.toList
  rw [whole, opened, List.flatMap_append] at text
  simpa [Segment.text] using text.symm

/-- The line of the open string is the one on which a string is opened for good. -/
theorem opening_eq_some_iff (inside : ∀ segment ∈ closed, ∀ body, segment ≠ .openString body)
    {line : Nat} :
    unclosed.map (fun _ => 1 + (closed.flatMap Segment.text).count '\n') = some line ↔
      OpensForGood source line := by
  have cut := Segment.isCut_ofSource source.toList
  have ends := Mode.after_flatMap_text cut
  rw [Segment.flatMap_text_ofSource] at ends
  rw [whole] at cut ends
  cases opened : unclosed with
  | none =>
      refine iff_of_false nofun fun opens => ?_
      obtain ⟨body, member⟩ := ends.mp opens.after_eq_string
      rw [opened, Option.toList_none, List.map_nil, List.append_nil] at member
      exact inside _ member body rfl
  | some body =>
      have member : .openString body ∈ closed ++ unclosed.toList.map Segment.openString := by
        rw [opened]
        exact List.mem_append_right _ List.mem_cons_self
      have unquoted : '"' ∉ body := cut.isProper _ member
      rw [opensForGood_iff (toList_of_unclosed whole opened) unquoted (ends.mpr ⟨body, member⟩)]
      exact Option.some_inj.trans eq_comm

end Unclosed

/-! ## Records -/

/-- A scan into a list shows nothing but records for the log. -/
theorem Sink.emissions_run_collecting (collected : List Diagnostic) (events : List Event) :
    (collecting.run collected events).emissions =
      (events.filterMap Event.record?).map Emission.log := by
  induction events generalizing collected with
  | nil => rfl
  | cons event rest ih =>
      change (collecting.take collected event).2 ++ (collecting.run _ rest).emissions = _
      rw [ih, List.filterMap_cons, take]
      cases event.diagnostic? <;> cases event.record? <;> rfl

/-- A scan has for the log how long the source is, what it meets, and how much is wrong. -/
theorem emissions_scan (source : String) :
    let errors := (scanWith .collecting [] source).sink.length
    (scan source).2 =
      ([.ofModule .debug "lox" ("scan " ++ toString source.utf8ByteSize ++ " bytes")] ++
        (Event.ofSource source).filterMap Event.record? ++
        (if errors = 0 then [] else [.ofModule .debug "lox" (toString errors ++ " errors")]) :
          List Log.Record).map Emission.log := by
  intro errors
  have records : (scanWith .collecting [] source).emissions =
      ([.ofModule .debug "lox" ("scan " ++ toString source.utf8ByteSize ++ " bytes")] ++
        (Event.ofSource source).filterMap Event.record? : List Log.Record).map Emission.log :=
    congrArg _ (Sink.emissions_run_collecting [] _)
  rw [List.map_append, ← records]
  unfold scan
  cases found : (scanWith .collecting [] source).sink with
  | nil =>
      have none : errors = 0 := congrArg List.length found
      rw [if_pos none, List.map_nil, List.append_nil]
      simp only [found]
  | cons diagnostic rest =>
      have some : errors ≠ 0 := by simp [errors, found]
      rw [if_neg some]
      simp only [errors, found]
      rfl

/-- What a scan has for the log is the transcript of what it finds. -/
theorem exists_transcript (source : String) :
    ∃ tokens opening ending,
      (scanWith .collecting [] source).tokens = tokens ++ [.eof ending] ∧
        (∀ token ∈ tokens, token.kind ≠ .eof) ∧
        (∀ line, opening = some line ↔ OpensForGood source line) ∧
        (scanWith .collecting [] source).sink.filter
            (fun diagnostic => diagnostic.fault = .unterminatedString) =
          opening.toList.map (fun _ => ⟨.unterminatedString, some ending, none⟩) ∧
        (scan source).2 = (transcript source.utf8ByteSize tokens opening ending
          (scanWith .collecting [] source).sink.length).map Emission.log := by
  -- An open string is the last segment and has no token, so all tokens are of what is closed.
  obtain ⟨closed, unclosed, whole, inside⟩ :=
    (Segment.isCut_ofSource source.toList).exists_unclosed
  have tokens : (Placed.ofSource source).filterMap Placed.token? =
      (Placed.ofSegments [] closed).filterMap Placed.token? := by
    rw [Placed.filterMap_ofSource whole]
    cases unclosed <;> exact List.append_nil _
  refine ⟨(Placed.ofSegments [] closed).filterMap Placed.token?,
    unclosed.map fun _ => 1 + (closed.flatMap Segment.text).count '\n',
    1 + source.toList.count '\n', ?_, ?_, fun line => opening_eq_some_iff whole inside, ?_, ?_⟩
  · rw [tokens_scanWith_eq_placed, tokens]
  · intro token member
    rw [← tokens] at member
    obtain ⟨piece, -, made⟩ := Placed.isLexical_of_token? member
    rw [made]
    exact piece.kind_ne_eof
  · rw [sink_scanWith_eq_placed, Placed.filterMap_ofSource whole, List.filter_append,
      Placed.filter_diagnostic?_of_closed inside, List.nil_append]
    cases opened : unclosed with
    | none => rfl
    | some body =>
        have lines : 1 + (closed.flatMap Segment.text).count '\n' + body.count '\n' =
            1 + source.toList.count '\n' := by
          rw [toList_of_unclosed whole opened, List.count_append, Nat.add_assoc]
          rfl
        rw [← lines]
        rfl
  · have events : ((Placed.ofSource source).filterMap Placed.event?).filterMap Event.record? =
        (Placed.ofSource source).filterMap Placed.record? := List.filterMap_filterMap
    rw [emissions_scan, Event.ofSource_eq_placed, List.filterMap_append, events,
      Placed.filterMap_record?_ofSource whole inside, transcript]
    simp only [List.append_assoc]
    rfl

/-! ## Levels -/

namespace Log

/-- The level that a directive, if there is one, sets for a component. -/
def limitFor (directive : Option String) (component : String) : Option Level :=
  directive.bind fun text => (Filter.ofDirective text).levelFor component

/-- After the first directive of a process, a record is printed if it is let through. -/
theorem print?_log_init (directive : String) (terminal : Bool) (record : Record) :
    (Emission.log record).print? (Logging.init {} (some directive) terminal) =
      if (Filter.ofDirective directive).allows record.target record.level then
        some (.logged record terminal)
      else none := by
  have logger : (Logging.init {} (some directive) terminal).logger =
      some ⟨Filter.ofDirective directive, terminal⟩ := rfl
  rw [Emission.print?, Logging.loggerOf?, logger, Option.filter_some]
  by_cases allowed : (Filter.ofDirective directive).allows record.target record.level = true
  · have admitted : (Logging.init {} (some directive) terminal).admits record.level = true :=
      Logging.admits_of_enabled allowed
    rw [if_pos admitted, if_pos allowed, if_pos allowed]
    rfl
  · rw [if_neg allowed, ite_self, if_neg allowed]
    rfl

/-- In a process that has been started once, the records from a component are printed that are
within the level for the component. -/
theorem prints_map_log (directive : Option String) (terminal : Bool) {component : String}
    {records : List Record}
    (origin : ∀ record ∈ records,
      ∃ target : Target, target.component = component ∧ record.target = target.text) :
    Emission.prints (Logging.init {} directive terminal) (records.map Emission.log) =
      (records.filter fun record => (limitFor directive component).any (record.level ≤ ·)).map
        (Print.logged · terminal) := by
  induction records with
  | nil => rfl
  | cons record rest ih =>
      obtain ⟨⟨target, rfl, here⟩, others⟩ := List.forall_mem_cons.mp origin
      rw [List.map_cons, Emission.prints_cons, ih others, List.filter_cons]
      cases directive with
      | none => rfl
      | some text =>
          rw [print?_log_init, here, Filter.allows_target_eq, limitFor, Option.bind_some]
          split <;> rfl

end Log

/-- Whatever a transcript holds comes from the library or from its scanner. -/
theorem exists_target_of_mem_transcript (bytes : Nat) (tokens : List Token)
    (opening : Option Nat) (ending errors : Nat) :
    ∀ record ∈ transcript bytes tokens opening ending errors,
      ∃ target : Log.Target, target.component = "lox" ∧ record.target = target.text := by
  have path : "lox::scanner" = "lox" ++ "::" ++ "scanner" := by decide
  have library : ∃ target : Log.Target, target.component = "lox" ∧ "lox" = target.text :=
    ⟨⟨"lox", none, Log.isComponent_lox⟩, rfl, rfl⟩
  have scanner : ∃ target : Log.Target, target.component = "lox" ∧ "lox::scanner" = target.text :=
    ⟨⟨"lox", some "scanner", Log.isComponent_lox⟩, rfl, path⟩
  simp only [transcript, List.forall_mem_append, List.forall_mem_map, List.forall_mem_singleton]
  refine ⟨⟨⟨⟨library, fun token _ => scanner⟩, fun line _ => scanner⟩, scanner⟩, ?_⟩
  split
  · exact List.forall_mem_nil _
  · exact List.forall_mem_singleton.mpr library

/-- In a process that has been started once, a scan prints the records of its transcript that are
within the level set for the library, and nothing else: none if no level is set. The transcript is
that of the tokens, in order; of the line of the quotation mark that opens a string which is never
closed, if there is such a string; of the line of the end, which is also that of the one diagnostic
for the string; and of the number of diagnostics. -/
theorem prints_scan (directive : Option String) (terminal : Bool) (source : String) :
    let logging := Log.Logging.init {} directive terminal
    let limit := Log.limitFor directive "lox"
    let diagnostics := (scanWith .collecting [] source).sink
    ∃ tokens opening ending,
      (scanWith .collecting [] source).tokens = tokens ++ [.eof ending] ∧
        (∀ token ∈ tokens, token.kind ≠ .eof) ∧
        (∀ line, opening = some line ↔ OpensForGood source line) ∧
        diagnostics.filter (fun diagnostic => diagnostic.fault = .unterminatedString) =
          opening.toList.map (fun _ => ⟨.unterminatedString, some ending, none⟩) ∧
        let records :=
          (transcript source.utf8ByteSize tokens opening ending diagnostics.length).filter
            fun record => limit.any (record.level ≤ ·)
        Emission.prints logging (scan source).2 = records.map (Print.logged · terminal) ∧
          String.join ((scan source).2.map logging.errText) =
            String.join (records.map (Log.Record.line · terminal)) := by
  intro logging limit diagnostics
  obtain ⟨tokens, opening, ending, found, no_eof, opened, reported, emissions⟩ :=
    exists_transcript source
  have printed := Log.prints_map_log directive terminal
    (exists_target_of_mem_transcript source.utf8ByteSize tokens opening ending diagnostics.length)
  rw [← emissions] at printed
  refine ⟨tokens, opening, ending, found, no_eof, opened, reported, printed, ?_⟩
  rw [Emission.join_map_errText, printed, List.map_map]
  rfl

/-- The records of the tokens and of the end are beyond the level. -/
example :
    (scan "x\n\"y\n").2.map (Log.Logging.init {} (some "lox=debug") false).errText =
      ["DEBUG [lox] scan 5 bytes\n", "", "DEBUG [lox::scanner] string from line 2 never closed\n",
        "", "DEBUG [lox] 1 errors\n"] := by
  decide +kernel

end LoxLexer
