import LoxLexer.Proofs.Scan.Placed

/-! # Rendering

The tokens of a scan hold enough to write a source with the same tokens: their lexemes, each on the
line of its token and with a blank before it where it would begin right after the last one. One
blank or newline always keeps two lexemes apart (`Lexeme.endsBefore_of_isSpace`), so whatever a scan
dropped, its tokens come back from what is written (`scan_rendering`). -/

namespace LoxLexer

namespace Token

/-- No token begins before the line that the one before it ends on. -/
def IsOrdered : Nat → List Token → Prop
  | _, [] => True
  | line, token :: rest =>
    line ≤ token.line ∧ IsOrdered (token.line + token.lexeme.toList.count '\n') rest

/-- What is written before a token: newlines from the given line to its own, and one space if there
are none, unless the token is the first or the last. -/
def gap (line : Nat) (first : Bool) (token : Token) : List Char :=
  if token.line - line = 0 ∧ ¬ first ∧ ¬ token.isEof then [' ']
  else List.replicate (token.line - line) '\n'

/-- The tokens written from the given line on. -/
def render : Nat → Bool → List Token → List Char
  | _, _, [] => []
  | line, first, token :: rest =>
    token.gap line first ++ token.lexeme.toList ++
      render (token.line + token.lexeme.toList.count '\n') false rest

/-- A source with the given tokens. -/
def rendering (tokens : List Token) : String :=
  String.ofList (render 1 true tokens)

end Token

namespace Event

/-- What a scan meets in a text that begins on the given line. -/
def ofText (line : Nat) (cs : List Char) : List Event :=
  ofSegments line (Segment.ofSource cs)

/-- Where a segment ends, what is met is its own event and then those of the rest. -/
theorem ofText_append (line : Nat) (segment : Segment) {rest : List Char}
    (proper : segment.IsProper) (ends : segment.EndsBefore rest) :
    ofText line (segment.text ++ rest) =
      (segment.event? line).toList ++ ofText (line + segment.newlines) rest := by
  unfold ofText
  rw [Segment.ofSource_append proper ends, ofSegments]

theorem ofText_nil (line : Nat) : ofText line [] = [ended line] := by
  rw [ofText, Segment.ofSource, ofSegments]

theorem ofText_blank (line : Nat) (rest : List Char) :
    ofText line (' ' :: rest) = ofText line rest :=
  ofText_append line (.blank ' ') rfl trivial

/-- Newlines in front only move what is met down. -/
theorem ofText_newlines (line count : Nat) (rest : List Char) :
    ofText line (List.replicate count '\n' ++ rest) = ofText (line + count) rest := by
  induction count generalizing line with
  | zero => rfl
  | succ count ih =>
      rw [List.replicate_succ, List.cons_append, Nat.add_comm count, ← Nat.add_assoc]
      exact (ofText_append line .newline trivial trivial).trans (ih (line + 1))

/-- A lexeme in front is met as its token. -/
theorem ofText_lexeme (line : Nat) {piece : Lexeme} {rest : List Char} (proper : piece.IsProper)
    (ends : piece.EndsBefore rest) :
    ofText line (piece.text ++ rest) =
      token (piece.token line) :: ofText (line + piece.text.count '\n') rest :=
  ofText_append line (.lexeme piece) proper ends

/-- What is written before a token leads to its line, and nothing is met on the way. -/
theorem ofText_gap {line : Nat} {token : Token} (ordered : line ≤ token.line) (first : Bool)
    (rest : List Char) : ofText line (token.gap line first ++ rest) = ofText token.line rest := by
  unfold Token.gap
  split
  · rename_i blank
    obtain rfl : line = token.line := by omega
    exact ofText_blank _ rest
  · rw [ofText_newlines, Nat.add_sub_cancel' ordered]

theorem filterMap_token?_tokens (tokens : List Token) (ending : Nat) :
    (tokens.map token ++ [ended ending]).filterMap token? = tokens ++ [.eof ending] := by
  have kept : token? ∘ token = some := rfl
  rw [List.filterMap_append, List.filterMap_map, kept, List.filterMap_some]
  rfl

theorem filterMap_diagnostic?_tokens (tokens : List Token) (ending : Nat) :
    (tokens.map token ++ [ended ending]).filterMap diagnostic? = [] := by
  rw [List.filterMap_eq_nil_iff]
  intro event member
  rcases List.mem_append.mp member with made | last
  · obtain ⟨found, -, rfl⟩ := List.mem_map.mp made
    rfl
  · cases List.mem_singleton.mp last
    rfl

end Event

namespace Token

variable {line ending : Nat} {tokens : List Token}

/-- Segments make tokens in order. -/
theorem isOrdered_ofSegments {start : Nat} (segments : List Segment) (later : start ≤ line) :
    IsOrdered start ((Event.ofSegments line segments).filterMap Event.token?) := by
  induction segments generalizing start line with
  | nil => exact ⟨later, trivial⟩
  | cons segment rest ih =>
      unfold Event.ofSegments
      rw [List.filterMap_append]
      cases segment with
      | lexeme piece =>
          refine ⟨later, ih ?_⟩
          rw [piece.toList_lexeme_token]
          exact le_rfl
      | _ =>
          -- What makes no token only moves the line on.
          apply ih
          exact later.trans (Nat.le_add_right _ _)

/-- The tokens of a scan are in order. -/
theorem isOrdered_scanWith {σ : Type} (sink : Sink σ) (state : σ) (source : String) :
    IsOrdered 1 (scanWith sink state source).tokens := by
  rw [tokens_scanWith]
  exact isOrdered_ofSegments _ le_rfl

theorem IsLexical.isEof_eq_false {token : Token} (lexical : IsLexical token) :
    token.isEof = false := by
  obtain ⟨piece, -, made⟩ := lexical
  rw [made]
  exact beq_false_of_ne piece.kind_ne_eof

/-- Only spaces and newlines are written before a token. -/
theorem isSpace_of_mem_gap {first : Bool} {token : Token} :
    ∀ c ∈ token.gap line first, IsSpace c := by
  intro c member
  unfold gap at member
  split at member
  · exact .inl (List.mem_singleton.mp member)
  · exact .inr (List.eq_of_mem_replicate member)

/-- Something is written before every token but the first and the last. -/
theorem gap_ne_nil (line : Nat) {token : Token} (not_eof : token.isEof = false) :
    token.gap line false ≠ [] := by
  unfold gap
  split
  · exact List.cons_ne_nil _ _
  · rename_i newlines
    intro none
    exact newlines ⟨(List.replicate_eq_nil_iff _).mp none, Bool.false_ne_true, by simp [not_eof]⟩

/-- What is written behind a token begins with a space or a newline. -/
theorem isSpace_of_mem_head?_render (line ending : Nat)
    (lexical : ∀ token ∈ tokens, IsLexical token) :
    ∀ c ∈ (render line false (tokens ++ [.eof ending])).head?, IsSpace c := by
  intro c head
  cases tokens with
  | nil =>
      have member := List.mem_of_mem_head? head
      change c ∈ gap line false (.eof ending) ++ [] ++ [] at member
      rw [List.append_nil, List.append_nil] at member
      exact isSpace_of_mem_gap c member
  | cons token rest =>
      have not_eof := (lexical token List.mem_cons_self).isEof_eq_false
      obtain ⟨d, more, written⟩ := List.exists_cons_of_ne_nil (gap_ne_nil line not_eof)
      rw [List.cons_append, render, written] at head
      obtain rfl : d = c := Option.some.inj head
      exact isSpace_of_mem_gap d (written ▸ List.mem_cons_self)

/-- What is written for lexical tokens in order is read back token by token. -/
theorem ofText_render (first : Bool) (lexical : ∀ token ∈ tokens, IsLexical token)
    (ordered : IsOrdered line (tokens ++ [.eof ending])) :
    Event.ofText line (render line first (tokens ++ [.eof ending])) =
      tokens.map .token ++ [.ended ending] := by
  induction tokens generalizing line first with
  | nil =>
      change Event.ofText line (gap line first (.eof ending) ++ [] ++ []) = _
      rw [List.append_assoc, Event.ofText_gap ordered.1, List.append_nil, Event.ofText_nil]
      rfl
  | cons token rest ih =>
      obtain ⟨⟨piece, proper, made⟩, others⟩ := List.forall_mem_cons.mp lexical
      obtain ⟨later, ordered⟩ := ordered
      have written : token.lexeme.toList = piece.text := by
        rw [made]
        exact piece.toList_lexeme_token token.line
      -- The gap before the next token keeps this lexeme apart from it.
      have ends := piece.endsBefore_of_isSpace
        (isSpace_of_mem_head?_render (token.line + piece.text.count '\n') ending others)
      rw [written] at ordered
      rw [List.cons_append, render, List.append_assoc, Event.ofText_gap later, written,
        Event.ofText_lexeme token.line proper ends, ih false others ordered, ← made]
      rfl

end Token

variable {σ : Type}

/-- The tokens of a scan, with whatever it reported left out, come back from their rendering: no
token begins before the line that the one before it ends on, and the rendering scans well, to the
same tokens. -/
theorem scan_rendering (sink : Sink σ) (state : σ) (source : String) :
    Token.IsOrdered 1 (scanWith sink state source).tokens ∧
      (scan (Token.rendering (scanWith sink state source).tokens)).1 =
        .ok (scanWith sink state source).tokens := by
  have ordered := Token.isOrdered_scanWith sink state source
  refine ⟨ordered, ?_⟩
  rw [tokens_scanWith_eq_placed] at ordered ⊢
  have read := Token.ofText_render true (fun _ => Placed.isLexical_of_token?) ordered
  generalize (Placed.ofSource source).filterMap Placed.token? = tokens at read ⊢
  generalize 1 + source.toList.count '\n' = ending at read ⊢
  have events : Event.ofSource (Token.rendering (tokens ++ [.eof ending])) =
      tokens.map .token ++ [.ended ending] := by
    unfold Event.ofSource Token.rendering
    rw [String.toList_ofList]
    exact read
  have clean : (scanWith .collecting [] (Token.rendering (tokens ++ [.eof ending]))).sink = [] := by
    rw [sink_scanWith_collecting, events, Event.filterMap_diagnostic?_tokens]
  rw [scan_of_clean .collecting [] clean, tokens_scanWith, events, Event.filterMap_token?_tokens]

end LoxLexer
