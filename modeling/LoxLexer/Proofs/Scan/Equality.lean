import LoxLexer.Proofs.Scan.MaximalMunch
import LoxLexer.Proofs.Scan.Number

/-! # Equality of tokens

What a token says does not depend on what stands around its lexeme: scanned alone, the lexeme gives
the token again (`Token.IsScanned.scan_lexeme`). No literal of a scan is a NaN, so tokens of two
scans are equal, numbers being compared as numbers, if and only if they have one lexeme and one line
(`Token.equals_iff_lexeme_line`). Among the lexemes of scans, those of a keyword's kind are told by
its name alone (`Token.IsScanned.kind_eq_iff`). -/

namespace LoxLexer

/-! ## Literals -/

theorem Binary64.equals_self {x : Binary64} (number : x.isNaN = false) : x.equals x = true := by
  simp [equals, number]

/-- A literal is equal to itself unless it is a NaN. -/
theorem Literal.equalOptions_self {literal? : Option Literal}
    (numbers : ∀ x, literal? = some (.number x) → x.isNaN = false) :
    equalOptions literal? literal? = true := by
  cases literal? with
  | none => rfl
  | some literal =>
      cases literal with
      | string value => exact beq_self_eq_true value
      | number x => exact Binary64.equals_self (numbers x rfl)

theorem Lexeme.isNaN_of_literal {piece : Lexeme} {x : Binary64}
    (found : piece.literal = some (.number x)) : x.isNaN = false := by
  cases piece with
  | number numeral =>
      cases found
      exact numeral.isRounded_value.isNaN_eq_false
  | _ => cases found

namespace Token.IsScanned
variable {token other : Token}

/-- No token of a scan has a literal that is not a number. -/
theorem isNaN_of_literal (scanned : token.IsScanned) {x : Binary64}
    (found : token.literal = some (.number x)) : x.isNaN = false := by
  rcases scanned.isLexical_or_eq_eof with ⟨piece, -, made⟩ | last
  · rw [made] at found
    exact Lexeme.isNaN_of_literal found
  · rw [last] at found
    cases found

/-! ## Lexemes -/

/-- Scanned alone, the lexeme of a token gives the token again, on the first line. -/
theorem scan_lexeme (scanned : token.IsScanned) :
    ∃ later, (scan token.lexeme).1 = .ok ({ token with line := 1 } :: later) := by
  rcases scanned.isLexical_or_eq_eof with ⟨piece, proper, made⟩ | last
  · rw [made]
    exact ⟨_, LoxLexer.scan_lexeme proper⟩
  · have nothing : (scan "").1 = .ok [.eof 1] := by decide +kernel
    rw [last]
    exact ⟨[], nothing⟩

/-- Tokens with one lexeme say the same, whatever stands around them. -/
theorem content_eq_of_lexeme (scanned : token.IsScanned) (other_scanned : other.IsScanned)
    (same : token.lexeme = other.lexeme) : token.content = other.content := by
  obtain ⟨later, alone⟩ := scanned.scan_lexeme
  obtain ⟨other_later, other_alone⟩ := other_scanned.scan_lexeme
  have tokens := alone.symm.trans ((congrArg (fun text => (scan text).1) same).trans other_alone)
  have contents := congrArg content (List.head_eq_of_cons_eq (Except.ok.inj tokens))
  exact contents

/-- Tokens of scans are equal exactly when their lexemes and their lines are. -/
theorem equals_iff (scanned : token.IsScanned) (other_scanned : other.IsScanned) :
    token.equals other = true ↔ token.lexeme = other.lexeme ∧ token.line = other.line := by
  constructor
  · intro equal
    simp only [equals, Bool.and_eq_true, beq_iff_eq] at equal
    obtain ⟨⟨⟨-, lexeme⟩, -⟩, line⟩ := equal
    exact ⟨lexeme, line⟩
  · rintro ⟨lexeme, line⟩
    have content := scanned.content_eq_of_lexeme other_scanned lexeme
    have kind : token.kind = other.kind := congrArg Content.kind content
    have literal : token.literal = other.literal := congrArg Content.literal content
    have equal : Literal.equalOptions other.literal other.literal = true :=
      Literal.equalOptions_self fun x found => other_scanned.isNaN_of_literal found
    simp only [equals, kind, lexeme, literal, line, equal, beq_self_eq_true, Bool.and_self]

end Token.IsScanned

/-- Equality is an equivalence on the tokens of scans. -/
theorem Token.equivalence_equals :
    Equivalence fun a b : {token : Token // token.IsScanned} => a.1.equals b.1 = true where
  refl a := (a.2.equals_iff a.2).mpr ⟨rfl, rfl⟩
  symm {a b} equal := by
    obtain ⟨lexeme, line⟩ := (a.2.equals_iff b.2).mp equal
    exact (b.2.equals_iff a.2).mpr ⟨lexeme.symm, line.symm⟩
  trans {a b c} equal later := by
    obtain ⟨lexeme, line⟩ := (a.2.equals_iff b.2).mp equal
    obtain ⟨next_lexeme, next_line⟩ := (b.2.equals_iff c.2).mp later
    exact (a.2.equals_iff c.2).mpr ⟨lexeme.trans next_lexeme, line.trans next_line⟩

/-! ## Keywords -/

/-- A proper lexeme is of a keyword's kind if and only if it is spelled so. -/
theorem Lexeme.kind_eq_keyword_iff {piece : Lexeme} (proper : piece.IsProper) (word : Keyword) :
    piece.kind = .keyword word ↔ String.ofList piece.text = word.spelling := by
  constructor
  · intro kind
    cases piece with
    | word letters =>
        rw [kind_word] at kind
        cases known : Keyword.ofSpelling? (String.ofList letters) with
        | none =>
            rw [known] at kind
            cases kind
        | some found =>
            rw [known] at kind
            cases kind
            exact (Keyword.ofSpelling?_eq_some_iff.mp known).symm
    | _ => cases kind
  · intro spelled
    have text : piece.text = word.spelling.toList := by rw [← spelled, String.toList_ofList]
    have segment : (Segment.lexeme piece).IsProper := proper
    -- A proper segment is told by its text, and the keyword is one.
    cases segment.eq_of_text (b := .lexeme (.word word.spelling.toList)) word.isProper_word text
    rw [kind_word, String.ofList_toList, word.ofSpelling?_spelling]
    rfl

namespace Token.IsScanned

/-- A token is of a keyword's kind if and only if its lexeme is the name of the kind in lower
case. -/
theorem kind_eq_iff {token : Token} (scanned : token.IsScanned) {kind : TokenKind}
    (keyword : kind.isKeyword = true) : token.kind = kind ↔ token.lexeme = kind.name.toLower := by
  obtain ⟨⟨spelling, word⟩, row, rfl⟩ := TokenKind.isKeyword_iff.mp keyword
  obtain rfl : word.spelling = spelling := Keyword.spelling_of_mem_table row
  rw [TokenKind.toLower_name_of_mem_table row]
  rcases scanned.isLexical_or_eq_eof with ⟨piece, proper, made⟩ | last
  · rw [made]
    exact Lexeme.kind_eq_keyword_iff proper word
  · rw [last]
    refine iff_of_false nofun fun (empty : "" = word.spelling) => ?_
    obtain ⟨first, rest, letters, -⟩ := word.isProper_word
    rw [← empty] at letters
    cases letters

end Token.IsScanned

/-- Two tokens, each of the scan of some source, are equal if and only if they have one lexeme and
one line; this is an equivalence. The lexeme alone tells the kind and the literal, which is what a
scan of nothing but the lexeme finds, and no literal is a NaN. A token is of a keyword's kind if and
only if its lexeme is the name of that kind in lower case, so no token of another kind is spelled
like a keyword. -/
theorem Token.equals_iff_lexeme_line {a b : Token} (scanned : a.IsScanned)
    (other_scanned : b.IsScanned) :
    (a.equals b = true ↔ a.lexeme = b.lexeme ∧ a.line = b.line) ∧
      (a.lexeme = b.lexeme → a.kind = b.kind ∧ a.literal = b.literal) ∧
      (∃ later, (scan a.lexeme).1 = .ok ({ a with line := 1 } :: later)) ∧
      (∀ x, a.literal = some (.number x) → x.isNaN = false) ∧
      (Equivalence fun c d : {token : Token // token.IsScanned} => c.1.equals d.1 = true) ∧
      (∀ kind : TokenKind, kind.isKeyword = true →
        (a.kind = kind ↔ a.lexeme = kind.name.toLower)) ∧
      (a.kind.isKeyword = false →
        ∀ kind : TokenKind, kind.isKeyword = true → a.lexeme ≠ kind.name.toLower) := by
  refine ⟨scanned.equals_iff other_scanned, ?_, scanned.scan_lexeme,
    fun x => scanned.isNaN_of_literal, equivalence_equals, fun kind => scanned.kind_eq_iff, ?_⟩
  · intro same
    have content := scanned.content_eq_of_lexeme other_scanned same
    exact ⟨congrArg Content.kind content, congrArg Content.literal content⟩
  · intro other kind keyword spelled
    rw [(scanned.kind_eq_iff keyword).mpr spelled, keyword] at other
    cases other

/-- Two numerals for one number, behind a point and a string over two lines. -/
theorem Token.equals_iff_lexeme_line_at_halves :
    let half := (Lexeme.number ⟨['1'], ['5', '0']⟩).token 2
    let short := (Lexeme.number ⟨['1'], ['5']⟩).token 2
    half ∈ (scanWith .collecting [] "\"\n\".1.50.").tokens ∧
      short ∈ (scanWith .collecting [] "\n1.5").tokens ∧
      half.literal = short.literal ∧ half.equals half = true ∧ half.equals short = false := by
  intro half short
  have found : half ∈ (scanWith .collecting [] "\"\n\".1.50.").tokens := by decide +kernel
  have short_found : short ∈ (scanWith .collecting [] "\n1.5").tokens := by decide +kernel
  have half_scanned : half.IsScanned := ⟨_, .collecting, [], _, found⟩
  have short_scanned : short.IsScanned := ⟨_, .collecting, [], _, short_found⟩
  refine ⟨found, short_found, by decide +kernel, ?_, ?_⟩
  · exact (equals_iff_lexeme_line half_scanned half_scanned).1.mpr ⟨rfl, rfl⟩
  · rw [Bool.eq_false_iff]
    intro equal
    have same := ((equals_iff_lexeme_line half_scanned short_scanned).1.mp equal).1
    exact absurd same (by decide +kernel)

end LoxLexer
