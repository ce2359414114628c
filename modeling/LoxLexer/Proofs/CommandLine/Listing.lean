import LoxLexer.Proofs.CommandLine.Session

/-! # Reading listings back

Listings of tokens, one after the other, can be read back: they tell how many texts were listed, and
of each text what every token says (`run_listed`). A kind is told by its name, which ends at the
first blank. A lexeme ends where a scan would end it before a blank (`Lexeme.append_blank_inj`), so
that whatever a string holds stays inside the string, and where a lexeme is known, so is its value.
The listing of a text ends with its only token for the end. -/

namespace LoxLexer

namespace TokenKind

theorem blank_notMem_name (kind : TokenKind) : ' ' ∉ kind.name.toList := by
  have every : ∀ kind ∈ all, ' ' ∉ kind.name.toList := by decide +kernel
  exact every kind kind.mem_all

/-- Every kind is found by its name. -/
theorem ofName?_name (kind : TokenKind) : ofName? kind.name = some kind := by
  have every : ∀ kind ∈ all, ofName? kind.name = some kind := by decide +kernel
  exact every kind kind.mem_all

/-- A kind is told by its name. -/
theorem name_inj {kind other : TokenKind} (same : kind.name = other.name) : kind = other := by
  have found := kind.ofName?_name
  rw [same, other.ofName?_name] at found
  exact (Option.some.inj found).symm

end TokenKind

/-- Before a blank a lexeme is the first that a scan of the text cuts off. -/
theorem Lexeme.append_blank_inj {piece other : Lexeme} {rest later : List Char}
    (proper : piece.IsProper) (other_proper : other.IsProper)
    (same : piece.text ++ ' ' :: rest = other.text ++ ' ' :: later) :
    piece = other ∧ rest = later := by
  have cut {piece : Lexeme} (proper : piece.IsProper) (rest : List Char) :
      Segment.ofSource (piece.text ++ ' ' :: rest) =
        .lexeme piece :: Segment.ofSource (' ' :: rest) := by
    have segment_proper : (Segment.lexeme piece).IsProper := proper
    have ends : piece.EndsBefore (' ' :: rest) :=
      piece.endsBefore_of_isSpace fun c first => .inl (Option.some.inj first).symm
    exact Segment.ofSource_append segment_proper ends
  have segments := congrArg Segment.ofSource same
  rw [cut proper, cut other_proper] at segments
  obtain ⟨first, -⟩ := List.cons.inj segments
  cases first
  exact ⟨rfl, List.tail_eq_of_cons_eq (List.append_cancel_left same)⟩

namespace CommandLine

/-- What the tokens of a text say. -/
def contents (text : String) : List Token.Content :=
  (scanWith .collecting [] text).tokens.map Token.content

/-- The listings of the tokens of texts, one after the other. -/
def listed (texts : List String) : String :=
  String.join (texts.map fun text =>
    String.join ((listing false (scanWith .collecting [] text).tokens).map Emission.outText))

/-! ## One line -/

/-- What a token of a text can say. -/
inductive Occurs : Token.Content → Prop
  | lexeme (piece : Lexeme) (proper : piece.IsProper) : Occurs (piece.token 0).content
  | eof : Occurs .eof

/-- Before a blank the kind and the lexeme of a token tell all that it says. -/
theorem Occurs.eq_of_lexeme {content other : Token.Content} {rest later : List Char}
    (occurs : Occurs content) (other_occurs : Occurs other) (kind : content.kind = other.kind)
    (same : content.lexeme.toList ++ ' ' :: rest = other.lexeme.toList ++ ' ' :: later) :
    content = other ∧ rest = later := by
  cases occurs with
  | lexeme piece proper =>
      cases other_occurs with
      | lexeme other other_proper =>
          change (String.ofList piece.text).toList ++ _ =
            (String.ofList other.text).toList ++ _ at same
          rw [String.toList_ofList, String.toList_ofList] at same
          obtain ⟨rfl, behind⟩ := piece.append_blank_inj proper other_proper same
          exact ⟨rfl, behind⟩
      | eof => exact (piece.kind_ne_eof kind).elim
  | eof =>
      cases other_occurs with
      | lexeme other other_proper => exact (other.kind_ne_eof kind.symm).elim
      | eof => exact ⟨rfl, List.tail_eq_of_cons_eq same⟩

/-- A line tells what its token says, and where the line ends. -/
theorem lineOf_append_inj {content other : Token.Content} {rest later : List Char}
    (occurs : Occurs content) (other_occurs : Occurs other)
    (same : lineOf content ++ rest = lineOf other ++ later) : content = other ∧ rest = later := by
  simp only [lineOf, List.append_assoc, List.cons_append, List.nil_append] at same
  obtain ⟨name, behind_name⟩ :=
    append_cons_inj content.kind.blank_notMem_name other.kind.blank_notMem_name same
  have kind := TokenKind.name_inj (String.toList_inj.mp name)
  obtain ⟨rfl, behind_lexeme⟩ := occurs.eq_of_lexeme other_occurs kind behind_name
  exact ⟨rfl, List.tail_eq_of_cons_eq (List.append_cancel_left behind_lexeme)⟩

/-! ## Many lines -/

/-- Where a line is listed, there is a blank. -/
theorem blank_mem_flatMap_lineOf (content : Token.Content) (contents : List Token.Content)
    (rest : List Char) : ' ' ∈ (content :: contents).flatMap lineOf ++ rest := by
  rw [List.flatMap_cons, List.append_assoc]
  exact List.mem_append_left _ (blank_mem_lineOf content)

/-- Lines tell what their tokens say, and where they end, before a text without blanks. -/
theorem flatMap_lineOf_append_inj {contents others : List Token.Content} {rest later : List Char}
    (occur : ∀ content ∈ contents, Occurs content)
    (others_occur : ∀ content ∈ others, Occurs content)
    (no_blank : ' ' ∉ rest) (no_blank_later : ' ' ∉ later)
    (same : contents.flatMap lineOf ++ rest = others.flatMap lineOf ++ later) :
    contents = others ∧ rest = later := by
  induction contents generalizing others with
  | nil =>
      cases others with
      | nil => exact ⟨rfl, same⟩
      | cons other others =>
          have blank := blank_mem_flatMap_lineOf other others later
          rw [← same] at blank
          exact (no_blank blank).elim
  | cons content contents ih =>
      cases others with
      | nil =>
          have blank := blank_mem_flatMap_lineOf content contents rest
          rw [same] at blank
          exact (no_blank_later blank).elim
      | cons other others =>
          rw [List.flatMap_cons, List.flatMap_cons, List.append_assoc, List.append_assoc] at same
          obtain ⟨first, after⟩ := List.forall_mem_cons.mp occur
          obtain ⟨other_first, other_after⟩ := List.forall_mem_cons.mp others_occur
          obtain ⟨rfl, behind⟩ := lineOf_append_inj first other_first same
          obtain ⟨rfl, ends⟩ := ih after other_after behind
          exact ⟨rfl, ends⟩

/-! ## Many texts -/

/-- What the tokens of a text say ends with what the last of them says and no other. -/
theorem exists_contents_eq (text : String) :
    ∃ front, contents text = front ++ [.eof] ∧ .eof ∉ front ∧
      ∀ content ∈ front, Occurs content := by
  have lexical : ∀ content ∈ (Segment.ofSource text.toList).filterMap Segment.content?,
      ∃ piece : Lexeme, piece.IsProper ∧ content = (piece.token 0).content := by
    intro content member
    obtain ⟨segment, place, found⟩ := List.mem_filterMap.mp member
    have proper := (Segment.isCut_ofSource text.toList).isProper segment place
    cases segment with
    | lexeme piece => exact ⟨piece, proper, (Option.some.inj found).symm⟩
    | _ => cases found
  refine ⟨_, map_content_scanWith .collecting [] text, ?_, ?_⟩
  · intro member
    obtain ⟨piece, -, same⟩ := lexical _ member
    exact piece.kind_ne_eof (congrArg Token.Content.kind same).symm
  · intro content member
    obtain ⟨piece, proper, rfl⟩ := lexical content member
    exact .lexeme piece proper

/-- What a token of a scan says is something that a token can say. -/
theorem occurs_of_mem_contents {text : String} {content : Token.Content}
    (member : content ∈ contents text) : Occurs content := by
  obtain ⟨front, whole, -, occur⟩ := exists_contents_eq text
  rw [whole] at member
  rcases List.mem_append.mp member with before | last
  · exact occur content before
  · cases List.mem_singleton.mp last
    exact .eof

/-- What all the tokens of some texts say tells where each text ends. -/
theorem flatMap_contents_eq_iff {texts others : List String} :
    texts.flatMap contents = others.flatMap contents ↔
      texts.map contents = others.map contents := by
  constructor
  · intro same
    induction texts generalizing others with
    | nil =>
        cases others with
        | nil => rfl
        | cons other others =>
            obtain ⟨front, whole, -⟩ := exists_contents_eq other
            simp [whole] at same
    | cons text texts ih =>
        obtain ⟨front, whole, inside, -⟩ := exists_contents_eq text
        cases others with
        | nil => simp [whole] at same
        | cons other others =>
            obtain ⟨other_front, other_whole, other_inside, -⟩ := exists_contents_eq other
            rw [List.flatMap_cons, List.flatMap_cons, whole, other_whole, List.append_assoc,
              List.append_assoc] at same
            obtain ⟨rfl, behind⟩ := append_cons_inj inside other_inside same
            rw [List.map_cons, List.map_cons, whole, other_whole, ih behind]
  · intro same
    rw [List.flatMap_def, same, ← List.flatMap_def]

/-- The lines of texts are the lines of all that their tokens say, in order. -/
theorem toList_join_tokenLines (texts rest : List String) :
    (String.join (texts.flatMap tokenLines ++ rest)).toList =
      (texts.flatMap contents).flatMap lineOf ++ (String.join rest).toList := by
  have line (text : String) : (tokenLines text).flatMap String.toList =
      (contents text).flatMap lineOf := by
    simp only [tokenLines, contents, List.flatMap_map, toList_tokenLine]
  rw [String.join_append, String.toList_append, String.toList_join, List.flatMap_assoc,
    List.flatMap_assoc]
  simp only [line]

/-- The lines of some texts tell what the tokens of each text say, and where the lines end, before
what has no blank. -/
theorem join_tokenLines_eq_iff {texts others rest later : List String}
    (no_blank : ' ' ∉ (String.join rest).toList)
    (no_blank_later : ' ' ∉ (String.join later).toList) :
    String.join (texts.flatMap tokenLines ++ rest) =
        String.join (others.flatMap tokenLines ++ later) ↔
      texts.map contents = others.map contents ∧ String.join rest = String.join later := by
  have occur (texts : List String) : ∀ content ∈ texts.flatMap contents, Occurs content := by
    intro content member
    obtain ⟨text, -, said⟩ := List.mem_flatMap.mp member
    exact occurs_of_mem_contents said
  rw [← String.toList_inj, toList_join_tokenLines, toList_join_tokenLines,
    ← flatMap_contents_eq_iff]
  constructor
  · intro same
    obtain ⟨said, ends⟩ :=
      flatMap_lineOf_append_inj (occur texts) (occur others) no_blank no_blank_later same
    exact ⟨said, String.toList_inj.mp ends⟩
  · intro same
    obtain ⟨said, ends⟩ := same
    rw [said, ends]

/-- Listings of texts are the lines of their tokens, joined. -/
theorem listed_eq (texts : List String) :
    listed texts = String.join (texts.flatMap tokenLines ++ []) := by
  rw [List.append_nil, Emission.join_flatMap]
  simp only [listed, Emission.join_map_outText, outs_listing]
  rfl

/-- The parting words are told apart where they are joined. -/
theorem join_parting_eq_iff {files others : List String} {input other_input : Input} :
    String.join (parting files input) = String.join (parting others other_input) ↔
      parting files input = parting others other_input := by
  rcases parting_cases files input with left | left <;>
    rcases parting_cases others other_input with right | right <;> rw [left, right] <;> decide

theorem blank_notMem_parting (files : List String) (input : Input) :
    ' ' ∉ (String.join (parting files input)).toList := by
  rcases parting_cases files input with parted | parted
  · rw [parted]
    decide
  · rw [parted]
    decide

/-- Listings of the same text are listings of as many texts, and of texts whose tokens say the same,
text by text. So two runs that are asked to scan and are not quiet put the same on the standard
output if and only if the texts that they scan have tokens that say the same, text by text, and both
part from a prompt or neither does: no string, whatever it holds, makes up a token or the end of a
file, or hides one. -/
theorem run_listed {arguments other_arguments files other_files : List String}
    (asks : AsksToScan arguments false files)
    (other_asks : AsksToScan other_arguments false other_files)
    (read other_read : FileReader) (input other_input : Input)
    (saved other_saved : Except FileError Unit) :
    (∀ texts others : List String,
      listed texts = listed others ↔ texts.map contents = others.map contents) ∧
      ((run arguments read input saved).outText =
          (run other_arguments other_read other_input other_saved).outText ↔
        (scannedTexts files read input).map contents =
            (scannedTexts other_files other_read other_input).map contents ∧
          parting files input = parting other_files other_input) := by
  constructor
  · intro texts others
    have no_blank : ' ' ∉ (String.join []).toList := by decide
    rw [listed_eq, listed_eq, join_tokenLines_eq_iff no_blank no_blank, and_iff_left rfl]
  · rw [asks.run_eq, other_asks.run_eq]
    simp only [Outcome.outText, Emission.join_map_outText, outs_scanning, Bool.false_eq_true,
      ↓reduceIte]
    rw [join_tokenLines_eq_iff (blank_notMem_parting _ _) (blank_notMem_parting _ _),
      join_parting_eq_iff]

/-- A string with the line of an end inside it, with and without a comment behind it, and two texts
without tokens. -/
theorem run_listed_of_forged :
    let read : FileReader := fun path =>
      if path = "forged" then .ok "\"\nEOF  null\n\"".toUTF8
      else if path = "remarked" then .ok "\"\nEOF  null\n\" // none".toUTF8
      else .ok "".toUTF8
    let out (files : List String) := (run files read { text := "" }).outText
    out ["forged"] = out ["remarked"] ∧ out ["forged"] ≠ out ["empty", "empty"] := by
  intro read out
  have asks (path : String) (paths : List String)
      (understood : Options.ofArguments (path :: paths) = .ok { files := path :: paths }) :
      AsksToScan (path :: paths) false (path :: paths) :=
    ⟨{ files := path :: paths }, understood, ⟨rfl, rfl⟩, rfl, rfl⟩
  have forged := asks "forged" [] rfl
  have remarked := asks "remarked" [] rfl
  have empty := asks "empty" ["empty"] rfl
  constructor
  · exact (run_listed forged remarked read read { text := "" } { text := "" } (.ok ())
      (.ok ())).2.mpr (by decide +kernel)
  · intro same
    exact absurd ((run_listed forged empty read read { text := "" } { text := "" } (.ok ())
      (.ok ())).2.mp same) (by decide +kernel)

end CommandLine

end LoxLexer
