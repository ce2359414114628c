import Mathlib.Data.List.Basic
import LoxLexer.Proofs.Log.Reading
import LoxLexer.Proofs.Log.Written

/-! # The pieces of a directive

A directive that is not a single word falls into pieces at its commas, and every piece sets what it
would set alone (`Filter.ofDirective_eq_pieces`). A piece that is a setting from its beginning to
its end sets what it says. Any other piece is not passed over as a whole: it sets what the terms say
that can be read in it (`Filter.ofDirective_pieces`), so that only those without a term that names a
level mean nothing. -/

namespace LoxLexer.Log

/-- Letters name a level only if they spell its word. -/
theorem Level.spelled_of_ofLetters? {letters : List Char} {level : Level}
    (named : ofLetters? letters = some level) : letters.map Char.toLower = level.word.toList := by
  have same := List.find?_some named
  exact (eq_of_beq same).symm

namespace Setting

/-- The component and the level that the setting is for. -/
def entry (setting : Setting) : String × Level :=
  (setting.component, setting.spelling.level)

/-- The entry of a piece that is a setting as a whole. -/
def entryOf? (piece : List Char) : Option (String × Level) :=
  match piece.takeWhile Term.isNameCharacter, piece.dropWhile Term.isNameCharacter with
  | c :: name, '=' :: word => Term.entry? ⟨c :: name, word⟩
  | _, _ => none

/-- A setting is read from its own text. -/
theorem entryOf?_text (setting : Setting) : entryOf? setting.text = some setting.entry := by
  have equals : ∀ c ∈ ('=' :: setting.spelling.letters).head?,
      Term.isNameCharacter c = false := by
    intro c first
    obtain rfl := Option.some.inj first
    rfl
  obtain ⟨taken, dropped⟩ := span_append setting.name_character equals
  have found := setting.entry?_term
  obtain ⟨c, name, named⟩ := List.exists_cons_of_ne_nil setting.name_ne_nil
  rw [term, named] at found
  rw [entryOf?, text, taken, dropped, named]
  exact found

/-- Only settings have an entry, and it is theirs. -/
theorem entryOf?_eq_some_iff {piece : List Char} {entry : String × Level} :
    entryOf? piece = some entry ↔
      ∃ setting : Setting, setting.text = piece ∧ setting.entry = entry := by
  constructor
  · intro found
    have whole := List.takeWhile_append_dropWhile (p := Term.isNameCharacter) (l := piece)
    unfold entryOf? at found
    split at found
    · rename_i c name word named behind
      have characters : ∀ d ∈ c :: name, Term.isNameCharacter d = true := by
        rw [← named]
        exact fun d inside => List.mem_takeWhile_imp inside
      obtain ⟨level, spelled, rfl⟩ := Option.map_eq_some_iff.mp found
      refine ⟨⟨c :: name, ⟨level, word, Level.spelled_of_ofLetters? spelled⟩,
        List.cons_ne_nil c name, characters⟩, ?_, rfl⟩
      rw [← whole, named, behind]
      rfl
    · cases found
  · rintro ⟨setting, rfl, rfl⟩
    exact setting.entryOf?_text

end Setting

namespace Term

/-! ## Reading piece by piece -/

/-- A run ends at the latest before a character that is not of its class. -/
theorem takeWhile_append_cons {p : Char → Bool} {c : Char} (stop : p c = false)
    (cs rest : List Char) :
    (cs ++ c :: rest).takeWhile p = cs.takeWhile p ∧
      (cs ++ c :: rest).dropWhile p = cs.dropWhile p ++ c :: rest := by
  have outside : ∀ d ∈ (cs.dropWhile p ++ c :: rest).head?, p d = false := by
    intro d first
    rw [List.head?_append] at first
    cases ending : (cs.dropWhile p).head? with
    | none =>
        rw [ending] at first
        obtain rfl : c = d := Option.some.inj first
        exact stop
    | some e =>
        rw [ending] at first
        obtain rfl : e = d := Option.some.inj first
        exact eq_false_of_mem_head?_dropWhile cs e ending
  have inside : ∀ d ∈ cs.takeWhile p, p d = true := fun d member => List.mem_takeWhile_imp member
  have spans := span_append inside outside
  rwa [← List.append_assoc, List.takeWhile_append_dropWhile] at spans

/-- A character that no term has in it. -/
structure IsSeparator (c : Char) : Prop where
  not_name : isNameCharacter c = false
  not_equals : c ≠ '='
  not_letter : c.isAlpha = false

theorem isSeparator_comma : IsSeparator ',' :=
  ⟨rfl, by decide, rfl⟩

theorem isSeparator_of_isWhiteSpace {c : Char} (white : Text.isWhiteSpace c = true) :
    IsSeparator c where
  not_name := by
    rw [Bool.eq_false_iff]
    intro character
    have inside := toNat_of_isNameCharacter character
    have outside := Text.toNat_of_isWhiteSpace white
    omega
  not_equals := by
    rintro rfl
    exact absurd white (by decide)
  not_letter := Text.isAlpha_eq_false_of_isWhiteSpace white

/-- A separator keeps what is read before it apart from what is read behind it. -/
theorem ofText_append_separator {c : Char} (separator : IsSeparator c)
    (name before rest : List Char) :
    ofText name (before ++ c :: rest) = ofText name before ++ ofText [] rest := by
  fun_induction ofText name before with
  | case1 name => exact ofText_other separator.not_name separator.not_equals name rest
  | case2 name d before first ih => rw [List.cons_append, ofText, if_pos first, ih]
  | case3 name d before other word made ih =>
      obtain ⟨taken, dropped⟩ := takeWhile_append_cons separator.not_letter before rest
      rw [List.cons_append, ofText, if_neg other]
      simp only [taken, dropped]
      rw [if_pos made, ih]
      rfl
  | case4 name d before other word unmade ih =>
      obtain ⟨taken, dropped⟩ := takeWhile_append_cons separator.not_letter before rest
      rw [List.cons_append, ofText, if_neg other]
      simp only [taken]
      rw [if_neg unmade, ih]

/-- Terms are read piece by piece where commas stand between the pieces. -/
theorem ofText_intercalate (pieces : List (List Char)) :
    ofText [] ([','].intercalate pieces) = pieces.flatMap (ofText []) := by
  induction pieces with
  | nil => exact ofText_nil []
  | cons piece rest ih =>
      cases rest with
      | nil => simp
      | cons next others =>
          rw [List.intercalate_cons_cons, List.append_assoc, List.singleton_append,
            ofText_append_separator isSeparator_comma, ih]
          exact List.flatMap_cons.symm

/-- There is no term in white space. -/
theorem ofText_of_isWhiteSpace {cs : List Char} (white : ∀ c ∈ cs, Text.isWhiteSpace c = true) :
    ofText [] cs = [] := by
  have read := Spacing.ofText_text ⟨cs, white⟩ []
  rwa [List.append_nil, ofText_nil] at read

/-- White space around a text is nothing to be read. -/
theorem ofText_trim (text : List Char) : ofText [] (Text.trim text) = ofText [] text := by
  obtain ⟨lead, trail, whole, lead_white, trail_white⟩ := Text.exists_append_trim text
  have behind : ofText [] (Text.trim text ++ trail) = ofText [] (Text.trim text) := by
    cases trail with
    | nil => rw [List.append_nil]
    | cons c trail =>
        obtain ⟨first, others⟩ := List.forall_mem_cons.mp trail_white
        rw [ofText_append_separator (isSeparator_of_isWhiteSpace first),
          ofText_of_isWhiteSpace others, List.append_nil]
  have read := Spacing.ofText_text ⟨lead, lead_white⟩ (Text.trim text ++ trail)
  rw [← List.append_assoc, ← whole, behind] at read
  exact read.symm

end Term

namespace Filter

/-- The pieces of a directive between its commas, without the white space around them. -/
def pieces (directive : String) : List (List Char) :=
  (directive.toList.splitOn ',').map Text.trim

/-- What the terms of a text set. -/
def entries (text : List Char) : List (String × Level) :=
  (Term.ofText [] text).filterMap Term.entry?

/-- The filter with levels for some components, of which the last for a component counts. -/
def ofEntries (entries : List (String × Level)) : Filter :=
  entries.foldl (fun filter entry => filter.set entry.1 entry.2)
    { components := [], nodup := List.nodup_nil }

/-- The text of a setting sets what the setting says. -/
theorem entries_text (setting : Setting) : entries setting.text = [setting.entry] := by
  have ended : ∀ c ∈ ([] : List Char).head?, c.isAlpha = false :=
    fun c begins => (Option.not_mem_none c begins).elim
  have read := setting.ofText_text ended
  rw [List.append_nil, Term.ofText_nil] at read
  rw [entries, read, List.filterMap_cons_some setting.entry?_term]
  rfl

/-- Every piece sets what it would set alone. -/
theorem ofDirective_eq_pieces {directive : String} (terms : ¬ IsWord directive) :
    ofDirective directive = ofEntries ((pieces directive).flatMap entries) := by
  have read : Term.ofText [] directive.toList = (pieces directive).flatMap (Term.ofText []) := by
    have whole : [','].intercalate (directive.toList.splitOn ',') = directive.toList :=
      List.intercalate_splitOn ','
    rw [pieces, List.flatMap_map]
    simp only [Term.ofText_trim]
    rw [← Term.ofText_intercalate, whole]
  rw [ofDirective_of_not_isWord terms, foldl_apply, Term.ofText_trim, read,
    List.filterMap_flatMap]
  rfl

/-- What is read in the piece names no level. -/
def NamesNoLevel (piece : List Char) : Prop :=
  ∀ terms, Term.Reads piece terms → ∀ term ∈ terms, term.level? = none

/-- The pieces of the directive that are no settings set nothing. -/
def SkipsMalformed (directive : String) : Prop :=
  ∀ piece ∈ pieces directive, (∀ setting : Setting, setting.text ≠ piece) → entries piece = []

/-- A piece sets what the terms say that it is read for. -/
theorem entries_of_reads {piece : List Char} {terms : List Term}
    (reads : Term.Reads piece terms) : entries piece = terms.filterMap Term.entry? := by
  rw [entries, Term.reads_iff.mp reads]

/-- A piece sets nothing if and only if what is read in it names no level. -/
theorem entries_eq_nil_iff {piece : List Char} : entries piece = [] ↔ NamesNoLevel piece := by
  unfold entries NamesNoLevel
  simp only [Term.reads_iff, forall_eq', List.filterMap_eq_nil_iff, Term.entry?,
    Option.map_eq_none_iff]

/-- Where malformed pieces set nothing, the pieces that are settings set all that is set. -/
theorem ofEntries_of_skipsMalformed {directive : String} (skips : SkipsMalformed directive) :
    ofEntries ((pieces directive).flatMap entries) =
      ofEntries ((pieces directive).filterMap Setting.entryOf?) := by
  have each : ∀ piece ∈ pieces directive, entries piece = (Setting.entryOf? piece).toList := by
    intro piece member
    cases found : Setting.entryOf? piece with
    | some entry =>
        obtain ⟨setting, rfl, rfl⟩ := Setting.entryOf?_eq_some_iff.mp found
        exact entries_text setting
    | none =>
        refine skips piece member fun setting same => ?_
        rw [← same, setting.entryOf?_text] at found
        cases found
  rw [List.filterMap_eq_flatMap_toList, List.flatMap_congr each]

/-- A directive that is not a single word sets no level for all components. Each of its pieces sets
what it would set alone, and of the levels that are set for a component the last counts. A setting
sets what it says, and any piece what the terms say that are read in it, which is nothing if and
only if none of them names a level. So the pieces that are no settings are skipped if and only if
this is so of all of them, and then the filter is that of the settings. -/
theorem ofDirective_pieces {directive : String} (terms : ¬ IsWord directive) :
    let filter := ofDirective directive
    let set := (pieces directive).flatMap entries
    filter.overall = none ∧
      filter = ofEntries set ∧
      (∀ component, filter.components.lookup component =
        (set.filter (·.1 == component)).getLast?.map Prod.snd) ∧
      (∀ setting : Setting, entries setting.text = [setting.entry]) ∧
      (∀ piece, ∃ terms, Term.Reads piece terms ∧ entries piece = terms.filterMap Term.entry?) ∧
      (SkipsMalformed directive ↔
        ∀ piece ∈ pieces directive, (∀ setting : Setting, setting.text ≠ piece) →
          NamesNoLevel piece) ∧
      (SkipsMalformed directive →
        filter = ofEntries ((pieces directive).filterMap Setting.entryOf?)) := by
  intro filter set
  have whole : filter = ofEntries set := ofDirective_eq_pieces terms
  refine ⟨?_, whole, ?_, entries_text, ?_, ?_, ?_⟩
  · change (ofDirective directive).overall = none
    rw [ofDirective_of_not_isWord terms, overall_foldl_apply]
  · intro component
    rw [whole, ofEntries, lookup_foldl_set]
    exact Option.or_none
  · intro piece
    have reads : Term.Reads piece (Term.ofText [] piece) :=
      Term.reads_ofText (List.forall_mem_nil _)
    exact ⟨_, reads, entries_of_reads reads⟩
  · unfold SkipsMalformed
    simp only [entries_eq_nil_iff]
  · intro skips
    exact whole.trans (ofEntries_of_skipsMalformed skips)

/-- A path in the place of a name, a setting, and a word that names no level. -/
theorem ofDirective_pieces_of_path :
    let filter := ofDirective "lox::a=debug, lox-log=Warn,main=loud"
    filter.components.lookup "a" = some .debug ∧
      filter.components.lookup "lox_log" = some .warn ∧
      filter.components.lookup "main" = none := by
  have terms : ¬ IsWord "lox::a=debug, lox-log=Warn,main=loud" := by
    rintro ⟨-, letters⟩
    exact absurd letters (by decide +kernel)
  obtain ⟨-, -, lookup, -⟩ := ofDirective_pieces terms
  exact ⟨(lookup "a").trans (by decide +kernel), (lookup "lox_log").trans (by decide +kernel),
    (lookup "main").trans (by decide +kernel)⟩

/-- A name behind two colons is read although the piece that it stands in is no setting. -/
theorem not_skipsMalformed_path :
    pieces "lox::a=debug" = ["lox::a=debug".toList] ∧
      (∀ setting : Setting, setting.text ≠ "lox::a=debug".toList) ∧
      ¬ SkipsMalformed "lox::a=debug" ∧
      (ofDirective "lox::a=debug").allows "a" .debug = true := by
  have piece : pieces "lox::a=debug" = ["lox::a=debug".toList] := by decide +kernel
  have malformed : ∀ setting : Setting, setting.text ≠ "lox::a=debug".toList := by
    intro setting same
    have no_entry : Setting.entryOf? "lox::a=debug".toList = none := by decide +kernel
    rw [← same, setting.entryOf?_text] at no_entry
    cases no_entry
  refine ⟨piece, malformed, ?_, by decide +kernel⟩
  intro skips
  have nothing := skips "lox::a=debug".toList (by rw [piece]; exact List.mem_cons_self) malformed
  exact absurd nothing (by decide +kernel)

end Filter

end LoxLexer.Log
