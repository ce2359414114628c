import LoxLexer.Proofs.Log.Directive
import LoxLexer.Proofs.Text.WhiteSpace

/-! # Written directives

Levels for components can be written as a directive: for each a name, an equals sign and the word of
the level, with commas between them and white space around the commas and the whole. No such
character belongs to a name or a word, so every setting is read back as one term
(`Written.ofText_body`), and the filter of the directive holds for each component the level that was
written for it last (`Logging.init_written`). -/

namespace LoxLexer.Log

/-! ## What is written -/

/-- White space, or nothing. -/
structure Spacing where
  text : List Char
  isWhiteSpace : ∀ c ∈ text, Text.isWhiteSpace c = true

/-- The word of a level, in letters of either case. -/
structure Spelling where
  level : Level
  letters : List Char
  spelled : letters.map Char.toLower = level.word.toList

/-- A name and the level for the component that it stands for. -/
structure Setting where
  name : List Char
  spelling : Spelling
  name_ne_nil : name ≠ []
  name_character : ∀ c ∈ name, Term.isNameCharacter c = true

namespace Setting

def text (setting : Setting) : List Char :=
  setting.name ++ '=' :: setting.spelling.letters

/-- The component that the name stands for. -/
def component (setting : Setting) : String :=
  String.ofList (setting.name.map fun c => if c = '-' then '_' else c)

end Setting

/-- A comma, with white space around it, and one more setting. -/
structure Continuation where
  before : Spacing
  after : Spacing
  setting : Setting

def Continuation.text (continuation : Continuation) : List Char :=
  continuation.before.text ++ ',' :: (continuation.after.text ++ continuation.setting.text)

/-- Settings with commas between them, and white space around the whole. -/
structure Written where
  lead : Spacing
  first : Setting
  rest : List Continuation
  trail : Spacing

namespace Written

def settings (written : Written) : List Setting :=
  written.first :: written.rest.map Continuation.setting

/-- What is written, without the white space around it. -/
def body (written : Written) : List Char :=
  written.first.text ++ written.rest.flatMap Continuation.text

def directive (written : Written) : String :=
  String.ofList (written.lead.text ++ written.body ++ written.trail.text)

/-- The level in the last setting for the component. -/
def levelOf? (written : Written) (component : String) : Option Level :=
  (written.settings.filter (·.component == component)).getLast?.map (·.spelling.level)

end Written

/-! ## Reading it back -/

/-- The characters of names are ASCII, from the hyphen to the letter z. -/
theorem Term.toNat_of_isNameCharacter {c : Char} (character : isNameCharacter c = true) :
    45 ≤ c.toNat ∧ c.toNat ≤ 122 := by
  rcases Bool.or_eq_true_iff.mp character with component | dash
  · rcases Bool.or_eq_true_iff.mp component with lower | underscore
    · obtain ⟨above, below⟩ := Text.toNat_of_isAlpha (Text.isAlpha_of_isLower lower)
      omega
    · rw [eq_of_beq underscore]
      decide
  · rw [eq_of_beq dash]
    decide

namespace Spelling

/-- A spelling of a level is read as the level. -/
theorem ofLetters? (spelling : Spelling) :
    Level.ofLetters? spelling.letters = some spelling.level := by
  unfold Level.ofLetters?
  rw [spelling.spelled]
  cases spelling.level <;> rfl

theorem isAlpha (spelling : Spelling) : ∀ c ∈ spelling.letters, c.isAlpha = true := by
  intro c inside
  have lower : ∀ d ∈ spelling.level.word.toList, d.isLower = true := by
    apply List.all_eq_true.mp
    cases spelling.level <;> decide
  apply Text.isAlpha_of_isLower_toLower
  apply lower
  rw [← spelling.spelled]
  exact List.mem_map_of_mem inside

theorem isWhiteSpace_eq_false (spelling : Spelling) :
    ∀ c ∈ spelling.letters, Text.isWhiteSpace c = false := by
  intro c inside
  have letter := Text.toNat_of_isAlpha (spelling.isAlpha c inside)
  exact Text.isWhiteSpace_eq_false (by omega) (by omega)

theorem ne_nil (spelling : Spelling) : spelling.letters ≠ [] := by
  intro empty
  have word := spelling.spelled
  rw [empty] at word
  cases level : spelling.level <;> rw [level] at word <;> cases word

end Spelling

namespace Setting

/-- The term that the setting is read back as. -/
def term (setting : Setting) : Term where
  name := setting.name
  word := setting.spelling.letters

/-- The term of a setting sets what the setting says. -/
theorem entry?_term (setting : Setting) :
    setting.term.entry? = some (setting.component, setting.spelling.level) := by
  unfold Term.entry? Term.level? term
  rw [setting.spelling.ofLetters?]
  rfl

/-- Where no letter follows a setting, it is read as its term. -/
theorem ofText_text (setting : Setting) {rest : List Char}
    (ended : ∀ c ∈ rest.head?, c.isAlpha = false) :
    Term.ofText [] (setting.text ++ rest) = setting.term :: Term.ofText [] rest := by
  unfold text
  rw [List.append_assoc, Term.ofText_name setting.name_character, List.nil_append]
  exact Term.ofText_equals setting.name_ne_nil setting.spelling.ne_nil
    setting.spelling.isAlpha ended

end Setting

namespace Spacing

/-- White space before a text is passed over. -/
theorem ofText_text (spacing : Spacing) (rest : List Char) :
    Term.ofText [] (spacing.text ++ rest) = Term.ofText [] rest := by
  obtain ⟨text, white⟩ := spacing
  induction text with
  | nil => rfl
  | cons c text ih =>
      obtain ⟨first, others⟩ := List.forall_mem_cons.mp white
      have outside := Text.toNat_of_isWhiteSpace first
      have not_name : Term.isNameCharacter c = false := by
        rw [Bool.eq_false_iff]
        intro character
        have inside := Term.toNat_of_isNameCharacter character
        omega
      have not_equals : c ≠ '=' := by
        rintro rfl
        exact absurd first (by decide)
      exact (Term.ofText_other not_name not_equals [] _).trans (ih others)

end Spacing

namespace Continuation

/-- A comma before a setting is passed over, with the white space around it. -/
theorem ofText_text (continuation : Continuation) (rest : List Char) :
    Term.ofText [] (continuation.text ++ rest) =
      Term.ofText [] (continuation.setting.text ++ rest) := by
  unfold text
  rw [List.append_assoc, continuation.before.ofText_text, List.cons_append,
    Term.ofText_other rfl (by decide), List.append_assoc, continuation.after.ofText_text]

/-- The letters of a word end where the next setting is separated from it. -/
theorem not_isAlpha_of_mem_head? (continuations : List Continuation) :
    ∀ c ∈ (continuations.flatMap text).head?, c.isAlpha = false := by
  intro c first
  cases continuations with
  | nil => cases first
  | cons continuation rest =>
      obtain ⟨⟨before, white⟩, after, setting⟩ := continuation
      cases before with
      | nil =>
          obtain rfl : ',' = c := Option.some.inj first
          rfl
      | cons d before =>
          obtain rfl : d = c := Option.some.inj first
          exact Text.isAlpha_eq_false_of_isWhiteSpace (white d List.mem_cons_self)

end Continuation

namespace Written

/-- Settings between commas are read as their terms, in order. -/
theorem ofText_body (written : Written) :
    Term.ofText [] written.body = written.settings.map Setting.term := by
  obtain ⟨lead, first, rest, trail⟩ := written
  unfold body settings
  induction rest generalizing first with
  | nil =>
      have ended : ∀ c ∈ ([] : List Char).head?, c.isAlpha = false :=
        fun c begins => (Option.not_mem_none c begins).elim
      rw [List.flatMap_nil, first.ofText_text ended, Term.ofText_nil]
      rfl
  | cons continuation rest ih =>
      rw [first.ofText_text (Continuation.not_isAlpha_of_mem_head? _), List.flatMap_cons,
        continuation.ofText_text, ih]
      rfl

theorem body_ne_nil (written : Written) : written.body ≠ [] := by
  unfold body Setting.text
  simp

/-- What is written begins with no white space. -/
theorem isWhiteSpace_of_mem_head?_body (written : Written) :
    ∀ c ∈ written.body.head?, Text.isWhiteSpace c = false := by
  intro c begins
  obtain ⟨first, others, name⟩ := List.exists_cons_of_ne_nil written.first.name_ne_nil
  unfold body Setting.text at begins
  rw [name] at begins
  obtain rfl : first = c := Option.some.inj begins
  have character := written.first.name_character first (by rw [name]; exact List.mem_cons_self)
  have inside := Term.toNat_of_isNameCharacter character
  exact Text.isWhiteSpace_eq_false (by omega) (by omega)

/-- What is written ends with the word of a level. -/
theorem exists_letters_body (written : Written) :
    ∃ front, ∃ spelling : Spelling, written.body = front ++ spelling.letters := by
  obtain ⟨lead, first, rest, trail⟩ := written
  unfold body
  -- The word at the end is that of the last setting, which is the first if no other follows.
  rcases List.eq_nil_or_concat rest with rfl | ⟨earlier, last, rfl⟩
  · refine ⟨first.name ++ ['='], first.spelling, ?_⟩
    simp [Setting.text]
  · refine ⟨first.text ++ earlier.flatMap Continuation.text ++ last.before.text ++ [','] ++
      last.after.text ++ last.setting.name ++ ['='], last.setting.spelling, ?_⟩
    simp [Continuation.text, Setting.text]

/-- What is written ends with no white space. -/
theorem isWhiteSpace_of_mem_getLast?_body (written : Written) :
    ∀ c ∈ written.body.getLast?, Text.isWhiteSpace c = false := by
  intro c ends
  obtain ⟨front, spelling, whole⟩ := written.exists_letters_body
  rw [whole, List.getLast?_append, List.getLast?_eq_some_getLast spelling.ne_nil,
    Option.some_or] at ends
  have letter := List.getLast_mem spelling.ne_nil
  rw [Option.some.inj ends] at letter
  exact spelling.isWhiteSpace_eq_false c letter

/-- Trimming takes the white space around what is written, and nothing of it. -/
theorem trim_directive (written : Written) :
    Text.trim written.directive.toList = written.body := by
  unfold directive
  rw [String.toList_ofList]
  exact Text.trim_append written.body_ne_nil written.lead.isWhiteSpace written.trail.isWhiteSpace
    written.isWhiteSpace_of_mem_head?_body written.isWhiteSpace_of_mem_getLast?_body

/-- Settings are not taken for a single word. -/
theorem not_isWord_directive (written : Written) : ¬ Filter.IsWord written.directive := by
  rintro ⟨-, letters⟩
  rw [trim_directive] at letters
  have equals : '=' ∈ written.body := by
    unfold body Setting.text
    simp
  exact absurd (List.all_eq_true.mp letters '=' equals) (by decide)

/-- A directive of settings sets their levels one by one. -/
theorem ofDirective_directive (written : Written) :
    Filter.ofDirective written.directive =
      (written.settings.map fun setting => (setting.component, setting.spelling.level)).foldl
        (fun filter entry => filter.set entry.1 entry.2) {} := by
  have entries : Term.entry? ∘ Setting.term =
      some ∘ fun setting => (setting.component, setting.spelling.level) := by
    funext setting
    exact setting.entry?_term
  rw [Filter.ofDirective_of_not_isWord written.not_isWord_directive, trim_directive, ofText_body,
    Filter.foldl_apply, List.filterMap_map, entries,
    List.filterMap_eq_map]

/-- A directive of settings sets no level for all components. -/
theorem overall_ofDirective (written : Written) :
    (Filter.ofDirective written.directive).overall = none := by
  rw [Filter.ofDirective_of_not_isWord written.not_isWord_directive, Filter.overall_foldl_apply]

/-- After a directive of settings a component has the level of the last setting for it. -/
theorem lookup_ofDirective (written : Written) (component : String) :
    (Filter.ofDirective written.directive).components.lookup component =
      written.levelOf? component := by
  rw [ofDirective_directive, Filter.lookup_foldl_set, List.filter_map, List.getLast?_map,
    Option.map_map]
  exact Option.or_none

/-- The same for the level that counts: a component has that of the last setting for it. -/
theorem levelFor_ofDirective (written : Written) (component : String) :
    (Filter.ofDirective written.directive).levelFor component = written.levelOf? component := by
  rw [Filter.levelFor_eq, overall_ofDirective, lookup_ofDirective, Option.none_or]

end Written

/-! ## A single word -/

/-- The word of a level, with white space around it. -/
def Spelling.directive (spelling : Spelling) (lead trail : Spacing) : String :=
  String.ofList (lead.text ++ spelling.letters ++ trail.text)

/-- A directive that is the word of a level sets the level for all components. -/
theorem Spelling.levelFor_ofDirective (spelling : Spelling) (lead trail : Spacing)
    (component : String) :
    (Filter.ofDirective (spelling.directive lead trail)).levelFor component =
      some spelling.level := by
  have trimmed : Text.trim (spelling.directive lead trail).toList = spelling.letters := by
    unfold directive
    rw [String.toList_ofList]
    exact Text.trim_append spelling.ne_nil lead.isWhiteSpace trail.isWhiteSpace
      (fun c begins => spelling.isWhiteSpace_eq_false c (List.mem_of_mem_head? begins))
      (fun c ends => spelling.isWhiteSpace_eq_false c (List.mem_of_getLast? ends))
  have word : Filter.IsWord (spelling.directive lead trail) := by
    unfold Filter.IsWord
    rw [trimmed]
    exact ⟨spelling.ne_nil, List.all_eq_true.mpr spelling.isAlpha⟩
  rw [Filter.ofDirective_of_isWord word, trimmed, spelling.ofLetters?]
  rfl

/-- Settings that are written as a directive are read back: the filter has no level for all
components, and for each component the level in the last setting whose name stands for it, if there
is one. So a record from a target in a component is let through if it is within that level, and
never if there is none. The word of a level lets through what is within the level from every
component. -/
theorem Logging.init_written (logging : Logging) (terminal : Bool) (target : Target)
    (level : Level) :
    (∀ written : Written,
      (Filter.ofDirective written.directive).overall = none ∧
        (∀ component, (Filter.ofDirective written.directive).components.lookup component =
          written.levelOf? component) ∧
        ((logging.init (some written.directive) terminal).enabled target.text level = true ↔
          ∃ limit ∈ written.levelOf? target.component, level ≤ limit)) ∧
      ∀ (spelling : Spelling) (lead trail : Spacing),
        (logging.init (some (spelling.directive lead trail)) terminal).enabled target.text level =
          true ↔ level ≤ spelling.level := by
  constructor
  · intro written
    refine ⟨written.overall_ofDirective, written.lookup_ofDirective, ?_⟩
    rw [enabled_init, Filter.allows_target_iff, written.levelFor_ofDirective]
  · intro spelling lead trail
    rw [enabled_init, Filter.allows_target_iff, spelling.levelFor_ofDirective]
    simp

/-- Two names, one with a dash, for the same component. -/
theorem Logging.init_written_at_dash (logging : Logging) :
    ∀ level, (logging.init (some "\tlox-log=DEBUG\u3000,lox_log=wArn\n") true).enabled
      "lox_log::part" level = true ↔ level ≤ .warn := by
  intro level
  let dashed : Setting :=
    { name := "lox-log".toList
      spelling := ⟨.debug, "DEBUG".toList, by decide⟩
      name_ne_nil := by decide
      name_character := List.all_eq_true.mp (by decide) }
  let later : Setting :=
    { name := "lox_log".toList
      spelling := ⟨.warn, "wArn".toList, by decide⟩
      name_ne_nil := by decide
      name_character := List.all_eq_true.mp (by decide) }
  let written : Written :=
    { lead := ⟨['\t'], List.all_eq_true.mp rfl⟩
      first := dashed
      rest := [⟨⟨['\u3000'], List.all_eq_true.mp rfl⟩, ⟨[], List.forall_mem_nil _⟩, later⟩]
      trail := ⟨['\n'], List.all_eq_true.mp rfl⟩ }
  let part : Target :=
    { component := "lox_log"
      path := some "part"
      isComponent := ⟨by decide, List.all_eq_true.mp (by decide)⟩ }
  have read := ((init_written logging true part level).1 written).2.2
  have directive : written.directive = "\tlox-log=DEBUG\u3000,lox_log=wArn\n" := by decide +kernel
  have target : part.text = "lox_log::part" := by decide +kernel
  have last : written.levelOf? part.component = some .warn := by decide +kernel
  rw [directive, target, last] at read
  simpa using read

end LoxLexer.Log
