import LoxLexer.Proofs.Log.Filter

/-! # What directives set

The terms of a directive are read from left to right (`Term.ofText_name`, `Term.ofText_equals`,
`Term.ofText_other`). A directive sets a level for all components or levels for some
(`Filter.overall_or_components_ofDirective`), and every component that it sets a level for is one
that targets can name (`Filter.namesComponents_ofDirective`). -/

namespace LoxLexer.Log

namespace Term

/-- The term has a name and a word, and nothing in them that belongs to neither. -/
structure IsProper (term : Term) : Prop where
  name_ne_nil : term.name ≠ []
  name_character : ∀ c ∈ term.name, isNameCharacter c = true
  word_ne_nil : term.word ≠ []
  word_letter : ∀ c ∈ term.word, c.isAlpha = true

theorem ofText_nil (name : List Char) : ofText name [] = [] := by
  rw [ofText]

/-- Name characters go to the name that is being read. -/
theorem ofText_name {more : List Char} (characters : ∀ c ∈ more, isNameCharacter c = true)
    (name rest : List Char) : ofText name (more ++ rest) = ofText (name ++ more) rest := by
  induction more generalizing name with
  | nil => rw [List.nil_append, List.append_nil]
  | cons c more ih =>
      obtain ⟨first, others⟩ := List.forall_mem_cons.mp characters
      rw [List.cons_append, ofText, if_pos first, ih others, List.append_assoc]
      rfl

/-- An equals sign between a name and letters makes a term. -/
theorem ofText_equals {name word rest : List Char} (named : name ≠ []) (worded : word ≠ [])
    (letters : ∀ c ∈ word, c.isAlpha = true) (ended : ∀ c ∈ rest.head?, c.isAlpha = false) :
    ofText name ('=' :: word ++ rest) = ⟨name, word⟩ :: ofText [] rest := by
  obtain ⟨taken, dropped⟩ := span_append letters ended
  have equals : ¬ isNameCharacter '=' = true := by decide
  rw [List.cons_append, ofText, if_neg equals]
  simp only [taken, dropped, named, worded, ne_eq, not_false_eq_true, and_self, ↓reduceIte]

/-- Any other character ends the name that is being read. -/
theorem ofText_other {c : Char} (outside : isNameCharacter c = false) (not_equals : c ≠ '=')
    (name rest : List Char) : ofText name (c :: rest) = ofText [] rest := by
  rw [ofText, if_neg (Bool.not_eq_true _ ▸ outside)]
  exact if_neg fun term => not_equals term.1

/-- Every term that is read is proper. -/
theorem isProper_of_mem_ofText {name text : List Char} {term : Term}
    (characters : ∀ c ∈ name, isNameCharacter c = true) (member : term ∈ ofText name text) :
    term.IsProper := by
  fun_induction ofText name text with
  | case1 => cases member
  | case2 name c rest first ih =>
      apply ih _ member
      intro d inside
      rcases List.mem_append.mp inside with earlier | last
      · exact characters d earlier
      · rw [List.mem_singleton.mp last]
        exact first
  | case3 name c rest other word made ih =>
      rcases List.mem_cons.mp member with rfl | later
      · exact ⟨made.2.1, characters, made.2.2, fun d inside => List.mem_takeWhile_imp inside⟩
      · exact ih (List.forall_mem_nil _) later
  | case4 name c rest other word unmade ih => exact ih (List.forall_mem_nil _) member

/-- With underscores for its dashes a name is that of a component. -/
theorem IsProper.isComponent {term : Term} (proper : term.IsProper) :
    IsComponent term.component where
  ne_empty := by
    intro empty
    have letters := congrArg String.toList empty
    rw [component, String.toList_ofList] at letters
    exact proper.name_ne_nil (List.map_eq_nil_iff.mp letters)
  characters := by
    intro c inside
    rw [component, String.toList_ofList] at inside
    obtain ⟨d, written, rfl⟩ := List.mem_map.mp inside
    have character := proper.name_character d written
    split
    · rfl
    · rename_i not_dash
      simpa [isNameCharacter, not_dash] using character

/-- The component and the level that a term sets, if its word names a level. -/
def entry? (term : Term) : Option (String × Level) :=
  term.level?.map (term.component, ·)

end Term

namespace Filter

/-! ## Filters of terms -/

/-- Applying terms sets the levels that they name, one by one. -/
theorem foldl_apply (filter : Filter) (terms : List Term) :
    terms.foldl apply filter =
      (terms.filterMap Term.entry?).foldl (fun filter entry => filter.set entry.1 entry.2)
        filter := by
  induction terms generalizing filter with
  | nil => rfl
  | cons term rest ih =>
      rw [List.foldl_cons, ih, List.filterMap_cons, apply, Term.entry?]
      cases term.level? <;> rfl

/-- No term sets a level for all components. -/
theorem overall_foldl_apply (filter : Filter) (terms : List Term) :
    (terms.foldl apply filter).overall = filter.overall := by
  induction terms generalizing filter with
  | nil => rfl
  | cons term rest ih =>
      rw [List.foldl_cons, ih, apply]
      cases term.level? <;> rfl

/-- Every component that the filter has a level for is one that targets can name. -/
def NamesComponents (filter : Filter) : Prop :=
  ∀ entry ∈ filter.components, IsComponent entry.1

/-- A filter without levels for components has none that no target can name. -/
theorem namesComponents_of_overall (overall : Option Level) :
    NamesComponents { overall := overall } :=
  List.forall_mem_nil _

/-- A proper term sets a level for a component that targets can name, if for any. -/
theorem NamesComponents.apply {filter : Filter} {term : Term} (named : filter.NamesComponents)
    (proper : term.IsProper) : (filter.apply term).NamesComponents := by
  unfold Filter.apply
  split
  · exact named
  · rintro ⟨name, held⟩ member
    have entry := mem_set.mp member
    split at entry
    · rename_i same
      exact same ▸ proper.isComponent
    · exact named _ entry

/-- Proper terms set levels for components that targets can name. -/
theorem NamesComponents.foldl_apply {filter : Filter} {terms : List Term}
    (named : filter.NamesComponents) (proper : ∀ term ∈ terms, term.IsProper) :
    (terms.foldl Filter.apply filter).NamesComponents := by
  induction terms generalizing filter with
  | nil => exact named
  | cons term rest ih =>
      obtain ⟨first, others⟩ := List.forall_mem_cons.mp proper
      exact ih (named.apply first) others

/-! ## Filters of directives -/

/-- The directive is a single word, with nothing but white space around it. -/
def IsWord (directive : String) : Prop :=
  Text.trim directive.toList ≠ [] ∧ (Text.trim directive.toList).all Char.isAlpha

/-- A single word sets the level that it names, if it names one, for all components. -/
theorem ofDirective_of_isWord {directive : String} (word : IsWord directive) :
    ofDirective directive = { overall := Level.ofLetters? (Text.trim directive.toList) } :=
  if_pos word

/-- Any other directive sets the levels that its terms set. -/
theorem ofDirective_of_not_isWord {directive : String} (terms : ¬ IsWord directive) :
    ofDirective directive = (Term.ofText [] (Text.trim directive.toList)).foldl apply {} :=
  if_neg terms

/-- A directive sets a level for all components or levels for some, and never both. -/
theorem overall_or_components_ofDirective (directive : String) :
    (ofDirective directive).overall = none ∨ (ofDirective directive).components = [] := by
  by_cases word : IsWord directive
  · rw [ofDirective_of_isWord word]
    exact .inr rfl
  · rw [ofDirective_of_not_isWord word, overall_foldl_apply]
    exact .inl rfl

/-- A directive sets levels only for components that targets can name. -/
theorem namesComponents_ofDirective (directive : String) :
    (ofDirective directive).NamesComponents := by
  by_cases word : IsWord directive
  · rw [ofDirective_of_isWord word]
    exact namesComponents_of_overall _
  · rw [ofDirective_of_not_isWord word]
    apply (namesComponents_of_overall none).foldl_apply
    intro term member
    exact Term.isProper_of_mem_ofText (List.forall_mem_nil _) member

end Filter

/-- With a directive given, the logger lets through what the filter of the directive does, whatever
directives came before. -/
theorem Logging.enabled_init (logging : Logging) (directive : String) (terminal : Bool)
    (target : String) (level : Level) :
    (logging.init (some directive) terminal).enabled target level =
      (Filter.ofDirective directive).allows target level :=
  rfl

end LoxLexer.Log
