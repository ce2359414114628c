import Mathlib.Data.List.Forall2
import LoxLexer.Proofs.Scan.Placed

/-! # Tilings

The segments of a source cover it without gap or overlap, and a scan reports on each of them in
turn: on a lexeme by a token, on a stray character or a string that is never closed by a diagnostic,
on anything else not at all. Lines are counts of newlines in the source: before the segment, or, for
a string that is never closed and for the end, in the whole of it (`exists_tiles_scanWith`). -/

namespace LoxLexer

namespace Segment

def isLexeme : Segment → Bool
  | lexeme _ => true
  | _ => false

def isFaulty : Segment → Bool
  | stray _ | openString _ => true
  | _ => false

end Segment

namespace Placed

/-- The token says what the segment does, and is on the line that the segment begins on. -/
structure HasToken (placed : Placed) (token : Token) : Prop where
  content : placed.segment.content? = some token.content
  lexeme : token.lexeme.toList = placed.segment.text
  line : token.line = 1 + placed.before.count '\n'

/-- The diagnostic says what is wrong with the segment, and where. -/
inductive HasDiagnostic (source : String) : Placed → Diagnostic → Prop
  | stray (before : List Char) (c : Char) :
      HasDiagnostic source ⟨before, .stray c⟩
        ⟨.unexpectedCharacter c, some (1 + before.count '\n'), none⟩
  | openString (before body : List Char) :
      HasDiagnostic source ⟨before, .openString body⟩
        ⟨.unterminatedString, some (1 + source.toList.count '\n'), none⟩

end Placed

/-- The segments are the whole of the source, and the tokens and the diagnostics are theirs, one for
one and in order. -/
structure Tiles (segments : List Segment) (source : String) (tokens : List Token)
    (diagnostics : List Diagnostic) : Prop where
  text : segments.flatMap Segment.text = source.toList
  proper : ∀ segment ∈ segments, segment.IsProper
  nonempty : ∀ segment ∈ segments, segment.text ≠ []
  open_last : ∀ before body after, segments = before ++ .openString body :: after → after = []
  tokens : ∃ lexemes,
    tokens = lexemes ++ [.eof (1 + source.toList.count '\n')] ∧
      List.Forall₂ Placed.HasToken
        ((Placed.ofSegments [] segments).filter (·.segment.isLexeme)) lexemes
  diagnostics : List.Forall₂ (Placed.HasDiagnostic source)
    ((Placed.ofSegments [] segments).filter (·.segment.isFaulty)) diagnostics

/-! ## One for one -/

/-- Nothing is behind an open string. -/
theorem Segment.IsCut.open_last {before after : List Segment} {body : List Char}
    (cut : IsCut (before ++ .openString body :: after)) : after = [] := by
  induction before with
  | nil =>
      obtain ⟨-, ends, later⟩ := cut
      exact later.eq_nil_of_text ends
  | cons segment rest ih => exact ih cut.2.2

namespace Placed

/-- A string that is never closed reaches to the end of the text. -/
theorem append_text_of_open {before : List Char} {segments : List Segment}
    (cut : Segment.IsCut segments) {placed : Placed} (member : placed ∈ ofSegments before segments)
    {body : List Char} (unclosed : placed.segment = .openString body) :
    placed.before ++ placed.segment.text = before ++ segments.flatMap Segment.text := by
  induction segments generalizing before with
  | nil => cases member
  | cons segment rest ih =>
      rw [List.flatMap_cons, ← List.append_assoc]
      rcases List.mem_cons.mp member with rfl | later
      · have ends : segment.EndsBefore (rest.flatMap Segment.text) := cut.2.1
        cases unclosed
        have nothing : rest.flatMap Segment.text = [] := ends
        rw [nothing, List.append_nil]
      · exact ih cut.2.2 later

/-- The lexemes and their tokens go together in order. -/
theorem forall₂_hasToken (places : List Placed) :
    List.Forall₂ HasToken (places.filter (·.segment.isLexeme)) (places.filterMap token?) := by
  induction places with
  | nil => exact .nil
  | cons placed rest ih =>
      obtain ⟨before, segment⟩ := placed
      cases segment with
      | lexeme piece => exact .cons ⟨rfl, piece.toList_lexeme_token _, rfl⟩ ih
      | _ => exact ih

/-- The faulty segments and their diagnostics go together in order. -/
theorem forall₂_hasDiagnostic {source : String} {places : List Placed}
    (reaches : ∀ placed ∈ places, ∀ body, placed.segment = .openString body →
      placed.before ++ placed.segment.text = source.toList) :
    List.Forall₂ (HasDiagnostic source) (places.filter (·.segment.isFaulty))
      (places.filterMap diagnostic?) := by
  induction places with
  | nil => exact .nil
  | cons placed rest ih =>
      obtain ⟨here, later⟩ := List.forall_mem_cons.mp reaches
      have others := ih later
      obtain ⟨before, segment⟩ := placed
      cases segment with
      | stray c => exact .cons (.stray before c) others
      | openString body =>
          have line : 1 + before.count '\n' + body.count '\n' = 1 + source.toList.count '\n' := by
            rw [← here body rfl, List.count_append, Nat.add_assoc]
            rfl
          have reported : HasDiagnostic source _ _ := .openString before body
          rw [← line] at reported
          exact .cons reported others
      | _ => exact others

end Placed

theorem tiles_scanWith (source : String) :
    Tiles (Segment.ofSource source.toList) source (scanWith .collecting [] source).tokens
      (scanWith .collecting [] source).sink where
  text := Segment.flatMap_text_ofSource source.toList
  proper := (Segment.isCut_ofSource source.toList).isProper
  nonempty := fun segment member =>
    ((Segment.isCut_ofSource source.toList).isProper segment member).text_ne_nil
  open_last := by
    intro before body after whole
    have cut := Segment.isCut_ofSource source.toList
    rw [whole] at cut
    exact cut.open_last
  tokens := ⟨_, tokens_scanWith_eq_placed .collecting [] source, Placed.forall₂_hasToken _⟩
  diagnostics := by
    rw [sink_scanWith_eq_placed]
    apply Placed.forall₂_hasDiagnostic
    intro placed member body unclosed
    have reaches := Placed.append_text_of_open (Segment.isCut_ofSource source.toList) member
      unclosed
    rw [Segment.flatMap_text_ofSource] at reaches
    exact reaches

/-! ## Order -/

namespace Placed

/-- A place begins where those before it have ended. -/
theorem pairwise_ofSegments (before : List Char) (segments : List Segment) :
    (ofSegments before segments).Pairwise
      fun first second => first.before ++ first.segment.text <+: second.before := by
  induction segments generalizing before with
  | nil => exact .nil
  | cons segment rest ih =>
      exact .cons (fun placed member => before_prefix_of_mem_ofSegments member) (ih _)

/-- A place begins no earlier than the line on which one before it ends. -/
theorem line_le_of_prefix {first second : Placed}
    (apart : first.before ++ first.segment.text <+: second.before) :
    1 + first.before.count '\n' ≤ 1 + (first.before ++ first.segment.text).count '\n' ∧
      1 + (first.before ++ first.segment.text).count '\n' ≤ 1 + second.before.count '\n' := by
  have inside := (List.prefix_append first.before first.segment.text).count_le '\n'
  have across := apart.count_le '\n'
  omega

/-- A token is on the line on which its place begins. -/
theorem line_of_token? {placed : Placed} {token : Token} (made : placed.token? = some token) :
    token.line = 1 + placed.before.count '\n' := by
  obtain ⟨piece, -, rfl⟩ := token?_eq_some_iff.mp made
  rfl

/-- A diagnostic is on a line of its place. -/
theorem exists_line_of_diagnostic? {placed : Placed} {diagnostic : Diagnostic}
    (made : placed.diagnostic? = some diagnostic) :
    ∃ line, diagnostic.line = some line ∧ 1 + placed.before.count '\n' ≤ line ∧
      line ≤ 1 + (placed.before ++ placed.segment.text).count '\n' := by
  obtain ⟨before, segment⟩ := placed
  cases segment with
  | stray c =>
      cases made
      refine ⟨_, rfl, le_rfl, ?_⟩
      exact Nat.add_le_add_left ((List.prefix_append before [c]).count_le '\n') 1
  | openString body =>
      cases made
      refine ⟨_, rfl, Nat.le_add_right _ _, ?_⟩
      rw [List.count_append, ← Nat.add_assoc]
      exact le_rfl
  | _ => cases made

end Placed

/-- A source is tiled by segments, on which its scan reports one for one. The lines of the tokens
never decrease, and neither do those of the diagnostics. -/
theorem exists_tiles_scanWith (source : String) :
    (∃ segments, Tiles segments source (scanWith .collecting [] source).tokens
      (scanWith .collecting [] source).sink) ∧
      (scanWith .collecting [] source).tokens.Pairwise (fun a b => a.line ≤ b.line) ∧
      (scanWith .collecting [] source).sink.Pairwise fun a b =>
        ∃ m n, a.line = some m ∧ b.line = some n ∧ m ≤ n := by
  have order := Placed.pairwise_ofSegments [] (Segment.ofSource source.toList)
  refine ⟨⟨_, tiles_scanWith source⟩, ?_, ?_⟩
  · rw [tokens_scanWith_eq_placed, List.pairwise_append]
    refine ⟨order.filterMap _ ?_, List.pairwise_singleton _ _, ?_⟩
    · intro first second apart a made_a b made_b
      obtain ⟨inside, across⟩ := Placed.line_le_of_prefix apart
      rw [Placed.line_of_token? made_a, Placed.line_of_token? made_b]
      exact inside.trans across
    · intro a member b last
      obtain ⟨placed, place, made⟩ := List.mem_filterMap.mp member
      obtain rfl := List.mem_singleton.mp last
      have inside := Placed.prefix_of_mem_ofSegments place
      rw [List.nil_append, Segment.flatMap_text_ofSource] at inside
      have before := (List.prefix_append placed.before placed.segment.text).trans inside
      rw [Placed.line_of_token? made]
      exact Nat.add_le_add_left (before.count_le '\n') 1
  · rw [sink_scanWith_eq_placed]
    refine order.filterMap _ ?_
    intro first second apart a made_a b made_b
    obtain ⟨m, line_a, -, above⟩ := Placed.exists_line_of_diagnostic? made_a
    obtain ⟨n, line_b, below, -⟩ := Placed.exists_line_of_diagnostic? made_b
    obtain ⟨-, across⟩ := Placed.line_le_of_prefix apart
    exact ⟨m, n, line_a, line_b, (above.trans across).trans below⟩

end LoxLexer
