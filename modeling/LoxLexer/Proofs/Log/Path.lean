import LoxLexer.Proofs.Log.Pieces

/-! # Levels along paths

The target of a record is a path: identifiers with two colons between them. A level belongs to the
path by the longest beginning of its first identifier that has only lower-case letters and
underscores (`Filter.componentOf?_path`). That beginning is the whole identifier if and only if the
identifier can be the name of a component, and only then does every directive apply to the path by
the name of its root (`Logging.enabled_path`): of any other root a setting for the beginning is
taken to be meant, and a root that begins with a capital letter is silent even where every component
is enabled. -/

namespace LoxLexer.Log

/-- A letter or an underscore, and then letters, digits and underscores. -/
structure Identifier where
  first : Char
  rest : List Char
  first_letter : isLetter first = true
  rest_word : ∀ c ∈ rest, isWordCharacter c = true

namespace Identifier

def letters (identifier : Identifier) : List Char :=
  identifier.first :: identifier.rest

def name (identifier : Identifier) : String :=
  String.ofList identifier.letters

/-- The longest beginning of lower-case letters and underscores. -/
def lead (identifier : Identifier) : List Char :=
  identifier.letters.takeWhile Filter.isComponentCharacter

end Identifier

/-- A path in a program: its root and the parts that lead on from there. -/
structure Path where
  root : Identifier
  parts : List Identifier

/-- The path as it is written, with two colons between its identifiers. -/
def Path.text (path : Path) : String :=
  "::".intercalate (path.root.name :: path.parts.map Identifier.name)

namespace Filter

/-- Records from the path are let through up to the level that the filter has for the whole name of
the path's root. -/
def AppliesByName (filter : Filter) (path : Path) : Prop :=
  ∀ level, filter.allows path.text level = true ↔
    ∃ limit ∈ filter.levelFor path.root.name, level ≤ limit

/-- The level that the filter has for the beginning of the path's root. -/
def leadLevel (filter : Filter) (path : Path) : Option Level :=
  if path.root.lead = [] then none else filter.levelFor (String.ofList path.root.lead)

end Filter

/-! ## Roots -/

/-- An identifier is the name of a component if its lead is the whole of it. -/
theorem Identifier.isComponent_name_iff (identifier : Identifier) :
    IsComponent identifier.name ↔ identifier.lead = identifier.letters := by
  have letters : identifier.name.toList = identifier.letters := String.toList_ofList
  constructor
  · intro component
    apply List.takeWhile_eq_self_iff.mpr
    rw [← letters]
    exact component.characters
  · intro whole
    refine ⟨?_, ?_⟩
    · intro empty
      rw [empty] at letters
      cases letters
    · rw [letters]
      exact List.takeWhile_eq_self_iff.mp whole

namespace Filter

/-- Where a root ends, nothing follows or a colon does. -/
theorem exists_toList_text (path : Path) :
    ∃ behind, path.text.toList = path.root.letters ++ behind ∧
      ∀ c ∈ behind.head?, isComponentCharacter c = false := by
  obtain ⟨root, parts⟩ := path
  cases parts with
  | nil =>
      refine ⟨[], ?_, nofun⟩
      rw [List.append_nil]
      exact String.toList_ofList
  | cons part others =>
      refine ⟨"::".toList ++ ("::".intercalate (part.name :: others.map Identifier.name)).toList,
        ?_, ?_⟩
      · rw [Path.text, List.map_cons, String.intercalate_cons_cons, String.toList_append,
          String.toList_append, Identifier.name, String.toList_ofList, List.append_assoc]
      · intro c first
        obtain rfl : ':' = c := Option.some.inj first
        rfl

/-- A path is in the component that is named by the lead of its root. -/
theorem componentOf?_path (path : Path) :
    componentOf? path.text =
      if path.root.lead = [] then none else some (String.ofList path.root.lead) := by
  obtain ⟨behind, whole, ended⟩ := exists_toList_text path
  have taken : path.text.toList.takeWhile isComponentCharacter = path.root.lead := by
    rw [whole, Identifier.lead]
    cases behind with
    | nil => rw [List.append_nil]
    | cons c behind => exact (Term.takeWhile_append_cons (ended c rfl) _ _).1
  unfold componentOf?
  rw [taken]
  split
  · rename_i empty
    rw [if_pos empty]
  · rename_i other
    rw [if_neg other]

/-- A record from a path is let through up to the level for the lead of the path's root. -/
theorem allows_path_iff {filter : Filter} {path : Path} {level : Level} :
    filter.allows path.text level = true ↔ ∃ limit ∈ filter.leadLevel path, level ≤ limit := by
  rw [allows_iff, componentOf?_path, leadLevel]
  split
  · simp
  · simp

end Filter

/-! ## Levels -/

/-- Which records are within a level tells the level. -/
theorem Level.limits_iff {first second : Option Level} :
    (∀ level : Level, (∃ limit ∈ first, level ≤ limit) ↔ ∃ limit ∈ second, level ≤ limit) ↔
      first = second := by
  constructor
  · intro same
    cases first with
    | none =>
        cases second with
        | none => rfl
        | some limit =>
            obtain ⟨other, member, -⟩ := (same limit).mpr ⟨limit, rfl, Std.le_refl limit⟩
            cases member
    | some limit =>
        obtain ⟨other, rfl, below⟩ := (same limit).mp ⟨limit, rfl, Std.le_refl limit⟩
        obtain ⟨again, member, above⟩ := (same other).mpr ⟨other, rfl, Std.le_refl other⟩
        obtain rfl : limit = again := Option.some.inj member
        rw [Std.le_antisymm below above]
  · rintro rfl level
    rfl

namespace Filter

/-- A filter applies by name where the lead of the root has the level of the whole root. -/
theorem appliesByName_iff {filter : Filter} {path : Path} :
    filter.AppliesByName path ↔ filter.leadLevel path = filter.levelFor path.root.name := by
  unfold AppliesByName
  simp only [allows_path_iff]
  exact Level.limits_iff

/-- A name that is not that of a component has no level of its own. -/
theorem NamesComponents.lookup_eq_none {filter : Filter} (named : filter.NamesComponents)
    {name : String} (other : ¬ IsComponent name) : filter.components.lookup name = none := by
  rw [Option.eq_none_iff_forall_ne_some]
  intro level found
  exact other (named _ (lookup_eq_some_iff.mp found))

/-- To a path with any other root a filter applies by name if it has one level for all components
and the root begins like the name of a component, or has levels for some components and none for
the beginning of the root. -/
theorem NamesComponents.appliesByName_iff {filter : Filter} (named : filter.NamesComponents)
    (path : Path) :
    filter.AppliesByName path ↔
      IsComponent path.root.name ∨
        if filter.overall.isSome then path.root.lead ≠ []
        else filter.components.lookup (String.ofList path.root.lead) = none := by
  rw [Filter.appliesByName_iff, leadLevel]
  by_cases component : IsComponent path.root.name
  · have whole := path.root.isComponent_name_iff.mp component
    have some_letters : path.root.letters ≠ [] := List.cons_ne_nil _ _
    rw [whole, if_neg some_letters]
    exact iff_of_true rfl (.inl component)
  rw [or_iff_right component, levelFor_eq, levelFor_eq, named.lookup_eq_none component,
    Option.or_none]
  cases filter.overall with
  | some limit => simp
  | none =>
      have unnamed : filter.components.lookup "" = none :=
        named.lookup_eq_none fun empty => empty.ne_empty rfl
      by_cases empty : path.root.lead = []
      · simp [empty, unnamed]
      · simp [empty]

/-! ## Directives -/

/-- Every root that is not the name of a component has a directive that does not apply by its name:
a level for all components if the root begins with a capital letter, and else a level for the
beginning of the root. -/
theorem exists_not_appliesByName {path : Path} (other : ¬ IsComponent path.root.name) :
    ∃ directive, ¬ (ofDirective directive).AppliesByName path := by
  by_cases empty : path.root.lead = []
  · refine ⟨"trace", ?_⟩
    have overall : (ofDirective "trace").overall = some .trace := by decide +kernel
    rw [(namesComponents_ofDirective _).appliesByName_iff, overall]
    simp [other, empty]
  have characters : ∀ c ∈ path.root.lead, isComponentCharacter c = true :=
    fun c inside => List.mem_takeWhile_imp inside
  let setting : Setting :=
    { name := path.root.lead
      spelling := ⟨.trace, "trace".toList, by decide⟩
      name_ne_nil := empty
      name_character := fun c inside => Bool.or_eq_true_iff.mpr (.inl (characters c inside)) }
  let written : Written :=
    { lead := ⟨[], List.forall_mem_nil _⟩
      first := setting
      rest := []
      trail := ⟨[], List.forall_mem_nil _⟩ }
  have component : setting.component = String.ofList path.root.lead := by
    have undashed : ∀ c ∈ path.root.lead, (if c = '-' then '_' else c) = c := by
      intro c inside
      apply if_neg
      rintro rfl
      exact absurd (characters '-' inside) (by decide)
    exact congrArg String.ofList ((List.map_congr_left undashed).trans (List.map_id' _))
  have level : written.levelOf? setting.component = some .trace := by
    simp [written, Written.levelOf?, Written.settings, setting]
  refine ⟨written.directive, ?_⟩
  rw [(namesComponents_ofDirective _).appliesByName_iff, written.overall_ofDirective,
    written.lookup_ofDirective, ← component, level]
  simp [other]

end Filter

/-- A record is let through if it is within the level for the beginning of its path's root, and
never if that beginning is empty or has no level. By the name of the root a directive applies if the
root is the name of a component, or else if the directive has one level for all components and the
beginning is not empty, or levels for some and none for the beginning. So roots that are names of
components are the only ones to which every directive applies by name. -/
theorem Logging.enabled_path (logging : Logging) (terminal : Bool) (path : Path) :
    (∀ directive level,
      (logging.init (some directive) terminal).enabled path.text level = true ↔
        path.root.lead ≠ [] ∧
          ∃ limit ∈ (Filter.ofDirective directive).levelFor (String.ofList path.root.lead),
            level ≤ limit) ∧
      (∀ directive,
        let filter := Filter.ofDirective directive
        (∀ level, (logging.init (some directive) terminal).enabled path.text level = true ↔
            ∃ limit ∈ filter.levelFor path.root.name, level ≤ limit) ↔
          IsComponent path.root.name ∨
            if filter.overall.isSome then path.root.lead ≠ []
            else filter.components.lookup (String.ofList path.root.lead) = none) ∧
      ((∀ directive level,
          (logging.init (some directive) terminal).enabled path.text level = true ↔
            ∃ limit ∈ (Filter.ofDirective directive).levelFor path.root.name, level ≤ limit) ↔
        IsComponent path.root.name) := by
  have by_name (directive : String) :=
    (Filter.namesComponents_ofDirective directive).appliesByName_iff path
  refine ⟨?_, by_name, ?_, ?_⟩
  · intro directive level
    rw [enabled_init, Filter.allows_path_iff, Filter.leadLevel]
    split
    · rename_i empty
      simp [empty]
    · rename_i some_lead
      simp [some_lead]
  · intro always
    by_contra other
    obtain ⟨directive, exception⟩ := Filter.exists_not_appliesByName other
    exact exception (always directive)
  · intro component directive
    exact (by_name directive).mpr (.inl component)

/-- A root that goes on with a digit behind the name of another component has the level of that
component, and a root that begins with a capital letter is silent although every component has a
level. -/
theorem Logging.not_appliesByName_lox2 :
    (∃ path : Path, path.text = "lox2::scanner" ∧ path.root.name = "lox2" ∧
      (Filter.ofDirective "lox=info").levelFor "lox2" = none ∧
      (init {} (some "lox=info") false).enabled "lox2::scanner" .info = true) ∧
    ∃ path : Path, path.text = "Lox" ∧ path.root.name = "Lox" ∧
      (Filter.ofDirective "trace").levelFor "Lox" = some .trace ∧
      (init {} (some "trace") false).enabled "Lox" .error = false := by
  let digit : Identifier := ⟨'l', "ox2".toList, by decide, List.all_eq_true.mp (by decide)⟩
  let part : Identifier := ⟨'s', "canner".toList, by decide, List.all_eq_true.mp (by decide)⟩
  let capital : Identifier := ⟨'L', "ox".toList, by decide, List.all_eq_true.mp (by decide)⟩
  refine ⟨⟨⟨digit, [part]⟩, ?_, ?_, ?_, ?_⟩, ⟨⟨capital, []⟩, ?_, ?_, ?_, ?_⟩⟩
  all_goals decide +kernel

end LoxLexer.Log
