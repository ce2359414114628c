import Mathlib.Data.List.DropRight
import LoxLexer.Proofs.Log.Pieces
import LoxLexer.Proofs.Text.Pattern

/-! # Terms at equals signs

The terms of a directive are found at its equals signs, in one pass from left to right with a mark
where the last word that was taken ends (`Term.pass`): behind the mark an equals sign makes a term
if the character before it belongs to a name and the character behind it is a letter. They are also
the matches of a pattern, found from left to right (`Term.map_groups_all_append`). Both are what
reading the text character by character finds (`Term.pass_eq`), so a directive that is not a single
word sets what they set (`Filter.ofDirective_passed`). -/

namespace LoxLexer.Log

namespace Term

/-! ## Passes -/

/-- An equals sign is taken where the character before it belongs to a name and is not before the
mark, and the character behind it is a letter. -/
def Takes (text : List Char) (mark place : Nat) : Prop :=
  mark < place ∧ text[place - 1]?.any isNameCharacter = true ∧
    text[place + 1]?.any Char.isAlpha = true

instance (text : List Char) (mark place : Nat) : Decidable (Takes text mark place) :=
  inferInstanceAs (Decidable (_ ∧ _ ∧ _))

/-- The longest run of name characters from the mark on that ends at the place. -/
def nameBefore (text : List Char) (mark place : Nat) : List Char :=
  ((text.take place).drop mark).rtakeWhile isNameCharacter

/-- The longest run of letters behind the place. -/
def wordBehind (text : List Char) (place : Nat) : List Char :=
  (text.drop (place + 1)).takeWhile Char.isAlpha

/-- The terms at some equals signs, in order and behind a mark. Each term moves the mark to the end
of its word, whatever the word is. -/
def passFrom (text : List Char) : Nat → List Nat → List Term
  | _, [] => []
  | mark, place :: places =>
    if Takes text mark place then
      ⟨nameBefore text mark place, wordBehind text place⟩ ::
        passFrom text (place + 1 + (wordBehind text place).length) places
    else passFrom text mark places

/-- The terms at all equals signs of a text. -/
def pass (text : List Char) : List Term :=
  passFrom text 0 (text.idxsOf '=')

variable {front name rest : List Char} {mark : Nat}

/-- The name before a place is found in what stands before the place. -/
theorem nameBefore_append (front rest : List Char) (mark : Nat) :
    nameBefore (front ++ rest) mark front.length =
      (front.drop mark).rtakeWhile isNameCharacter := by
  rw [nameBefore, List.take_left]

/-- The word behind a place is found in what stands behind the place. -/
theorem wordBehind_append (front rest : List Char) (c : Char) :
    wordBehind (front ++ c :: rest) front.length = rest.takeWhile Char.isAlpha := by
  have whole : (front ++ [c]).length = front.length + 1 := List.length_append
  rw [wordBehind, List.append_cons, ← whole, List.drop_left]

/-- An equals sign is taken if there is a name to take before it and a word to take behind it. -/
theorem takes_iff (front rest : List Char) (mark : Nat) :
    Takes (front ++ '=' :: rest) mark front.length ↔
      (front.drop mark).rtakeWhile isNameCharacter ≠ [] ∧ rest.takeWhile Char.isAlpha ≠ [] := by
  unfold Takes
  rw [← and_assoc]
  apply and_congr
  · rcases List.eq_nil_or_concat front with rfl | ⟨earlier, c, rfl⟩
    · simp
    by_cases inside : mark ≤ earlier.length
    · by_cases character : isNameCharacter c = true
      · simp [List.drop_append_of_le_length inside, character]
        omega
      · simp [List.drop_append_of_le_length inside, character]
    · have none : (earlier ++ [c]).drop mark = [] := List.drop_eq_nil_of_le (by simp; omega)
      have beyond : ¬ mark < (earlier ++ [c]).length := by simp; omega
      rw [List.concat_eq_append, none]
      exact iff_of_false (fun taken => beyond taken.1) (fun some_name => some_name rfl)
  · cases rest with
    | nil => simp
    | cons d rest => by_cases letter : d.isAlpha = true <;> simp [letter]

/-- No equals sign is in a word, so the next is behind it. -/
theorem idxsOf_dropWhile (rest : List Char) (start : Nat) :
    rest.idxsOf '=' start =
      (rest.dropWhile Char.isAlpha).idxsOf '=' (start + (rest.takeWhile Char.isAlpha).length) := by
  have no_equals : (rest.takeWhile Char.isAlpha).findIdxs (· == '=') start = [] := by
    rw [List.findIdxs_eq_nil_iff]
    intro c inside
    have letter : c.isAlpha = true := List.mem_takeWhile_imp inside
    rw [beq_eq_false_iff_ne]
    rintro rfl
    cases letter
  have whole := List.takeWhile_append_dropWhile (p := Char.isAlpha) (l := rest)
  calc rest.idxsOf '=' start
      = (rest.takeWhile Char.isAlpha ++ rest.dropWhile Char.isAlpha).findIdxs (· == '=') start := by
        rw [whole]
        rfl
    _ = _ := by
        rw [List.findIdxs_append, no_equals]
        rfl

/-- Going on from a place, the pass takes what is read from there, if the name that is being read is
the one that ends there. -/
theorem passFrom_eq (inside : mark ≤ front.length)
    (named : (front.drop mark).rtakeWhile isNameCharacter = name) :
    passFrom (front ++ rest) mark (rest.idxsOf '=' front.length) = ofText name rest := by
  have length (front : List Char) (c : Char) : (front ++ [c]).length = front.length + 1 :=
    List.length_append
  fun_induction ofText name rest generalizing front mark with
  | case1 => rfl
  | case2 name c rest first ih =>
      have not_equals : ¬ (c == '=') = true := by
        rw [beq_iff_eq]
        rintro rfl
        cases first
      rw [List.idxsOf_cons, if_neg not_equals, List.append_cons, ← length front c]
      apply ih
      · rw [length]
        omega
      · rw [List.drop_append_of_le_length inside, List.rtakeWhile_concat_pos _ _ _ first, named]
  | case3 name c rest other word made =>
      rename_i ih
      obtain ⟨rfl, some_name, some_word⟩ := made
      have taken := (takes_iff front rest mark).mpr ⟨named ▸ some_name, some_word⟩
      -- Behind the term both go on from the end of its word, without any of it as a name.
      have whole : front ++ '=' :: rest =
          (front ++ '=' :: word) ++ rest.dropWhile Char.isAlpha := by
        have word_rest : word ++ rest.dropWhile Char.isAlpha = rest :=
          List.takeWhile_append_dropWhile
        rw [List.append_assoc, List.cons_append, word_rest]
      have end_of_word : (front ++ '=' :: word).length = front.length + 1 + word.length := by
        rw [List.length_append, List.length_cons]
        omega
      rw [List.idxsOf_cons, if_pos (beq_self_eq_true _), passFrom, if_pos taken, nameBefore_append,
        wordBehind_append, named, idxsOf_dropWhile]
      change _ :: passFrom _ (front.length + 1 + word.length)
        (List.idxsOf '=' _ (front.length + 1 + word.length)) = _
      rw [← end_of_word, whole, ih le_rfl (by rw [List.drop_length]; rfl)]
  | case4 name c rest other word unmade =>
      rename_i ih
      -- The character is part of no name, and the mark stays where it is.
      have passed : passFrom (front ++ c :: rest) mark (rest.idxsOf '=' (front.length + 1)) =
          ofText [] rest := by
        rw [List.append_cons, ← length front c]
        apply ih
        · rw [length]
          omega
        · rw [List.drop_append_of_le_length inside, List.rtakeWhile_concat_neg _ _ _ other]
      rw [List.idxsOf_cons]
      split
      · rename_i equals
        obtain rfl : c = '=' := eq_of_beq equals
        have untaken : ¬ Takes (front ++ '=' :: rest) mark front.length := by
          intro taken
          obtain ⟨some_name, some_word⟩ := (takes_iff front rest mark).mp taken
          exact unmade ⟨rfl, named ▸ some_name, some_word⟩
        rw [passFrom, if_neg untaken, passed]
      · exact passed

/-- The pass finds what reading character by character finds. -/
theorem pass_eq (text : List Char) : pass text = ofText [] text := by
  have whole : passFrom ([] ++ text) 0 (text.idxsOf '=' ([] : List Char).length) = ofText [] text :=
    passFrom_eq (Nat.zero_le _) rfl
  exact whole

/-! ## Matches -/

/-- An equals sign and a word, which is kept. -/
def wordPattern : Text.Pattern :=
  .followedBy (.one (· == '=')) (.group (.many Char.isAlpha))

/-- A name, which is kept, before an equals sign and a word. -/
def pattern : Text.Pattern :=
  .followedBy (.group (.many isNameCharacter)) wordPattern

/-- What the pattern keeps of a term. -/
def groups (term : Term) : List (List Char) :=
  [term.name, term.word]

/-- The pattern of a word matches only at an equals sign. -/
theorem ways_wordPattern_of_ne {c : Char} (other : c ≠ '=') (rest : List Char) :
    wordPattern.ways (c :: rest) = [] := by
  have unequal : (c == '=') = false := beq_eq_false_iff_ne.mpr other
  simp [wordPattern, Text.Pattern.ways, unequal]

/-- At an equals sign the pattern of a word matches the longest run of letters, if there is one. -/
theorem head?_ways_wordPattern (rest : List Char) :
    (wordPattern.ways ('=' :: rest)).head? =
      if rest.takeWhile Char.isAlpha = [] then none
      else some ⟨'=' :: rest.takeWhile Char.isAlpha, [rest.takeWhile Char.isAlpha],
        rest.dropWhile Char.isAlpha⟩ := by
  have words := Text.Pattern.head?_ways_many Char.isAlpha rest
  have equals : wordPattern.ways ('=' :: rest) =
      (((Text.Pattern.many Char.isAlpha).ways rest).map Text.Match.grouped).map
        (Text.Match.append ⟨['='], [], rest⟩) :=
    List.append_nil _
  rw [equals, List.head?_map, List.head?_map, words]
  split <;> rfl

/-- At the beginning of a name the pattern matches if an equals sign and a word follow, and then it
matches all of the name and of the word. -/
theorem head?_ways_pattern (text : List Char) :
    (pattern.ways text).head? =
      if text.takeWhile isNameCharacter = [] then none
      else (wordPattern.ways (text.dropWhile isNameCharacter)).head?.map
        (Text.Match.append ⟨text.takeWhile isNameCharacter, [text.takeWhile isNameCharacter],
          text.dropWhile isNameCharacter⟩) := by
  apply Text.Pattern.head?_ways_run
  intro c after character
  apply ways_wordPattern_of_ne
  rintro rfl
  cases character

/-- In a run of name characters the pattern of a term has no match. -/
theorem all_pattern_of_name {name : List Char}
    (characters : ∀ c ∈ name, isNameCharacter c = true) : pattern.all name = [] := by
  rw [← List.append_nil name, Text.Pattern.all_append]
  · exact Text.Pattern.all_of_first?_eq_none rfl
  · intro part suffix _
    have run : part.dropWhile isNameCharacter = [] :=
      List.dropWhile_eq_nil_iff.mpr fun c inside => characters c (suffix.subset inside)
    rw [List.append_nil, head?_ways_pattern, run]
    split <;> rfl

/-- A character that ends a name, and is no equals sign between a name and a letter, is passed over
with the name. -/
theorem all_pattern_append_cons {name rest : List Char} {c : Char}
    (characters : ∀ d ∈ name, isNameCharacter d = true) (other : isNameCharacter c = false)
    (unmade : ¬ (c = '=' ∧ name ≠ [] ∧ rest.takeWhile Char.isAlpha ≠ [])) :
    pattern.all (name ++ c :: rest) = pattern.all rest := by
  have ended : ∀ d ∈ (c :: rest).head?, isNameCharacter d = false := by
    intro d first
    obtain rfl := Option.some.inj first
    exact other
  have nothing : ∀ part, part <:+ name → (pattern.ways (part ++ c :: rest)).head? = none := by
    intro part suffix
    have part_characters : ∀ d ∈ part, isNameCharacter d = true :=
      fun d inside => characters d (suffix.subset inside)
    obtain ⟨taken, dropped⟩ := span_append part_characters ended
    rw [head?_ways_pattern, taken, dropped]
    split
    · rfl
    rename_i some_part
    by_cases equals : c = '='
    · subst equals
      have some_name : name ≠ [] := by
        rintro rfl
        exact some_part (List.suffix_nil.mp suffix)
      have no_word : rest.takeWhile Char.isAlpha = [] := by
        by_contra some_word
        exact unmade ⟨rfl, some_name, some_word⟩
      rw [head?_ways_wordPattern, if_pos no_word]
      rfl
    · rw [ways_wordPattern_of_ne equals]
      rfl
  rw [Text.Pattern.all_append fun part suffix _ => nothing part suffix]
  exact Text.Pattern.all_cons (nothing [] List.nil_suffix)

/-- The matches of the pattern are what reading character by character finds. -/
theorem map_groups_all_append {name text : List Char}
    (characters : ∀ c ∈ name, isNameCharacter c = true) :
    (pattern.all (name ++ text)).map Text.Match.groups = (ofText name text).map groups := by
  fun_induction ofText name text with
  | case1 name =>
      rw [List.append_nil, all_pattern_of_name characters]
      rfl
  | case2 name c rest first ih =>
      rw [List.append_cons]
      exact ih (by simpa [or_imp, forall_and, first] using characters)
  | case3 name c rest other word made =>
      rename_i ih
      obtain ⟨rfl, some_name, some_word⟩ := made
      have equals : ∀ c ∈ ('=' :: rest).head?, isNameCharacter c = false := by
        intro c first
        obtain rfl := Option.some.inj first
        rfl
      obtain ⟨taken, dropped⟩ := span_append characters equals
      have found : (pattern.ways (name ++ '=' :: rest)).head? =
          some ⟨name ++ '=' :: word, [name, word], rest.dropWhile Char.isAlpha⟩ := by
        rw [head?_ways_pattern, taken, dropped, if_neg some_name, head?_ways_wordPattern,
          if_neg some_word]
        rfl
      rw [Text.Pattern.all_of_first? (Text.Pattern.first?_of_ways found), List.map_cons,
        List.map_cons, ← ih (List.forall_mem_nil _)]
      rfl
  | case4 name c rest other word unmade =>
      rename_i ih
      rw [all_pattern_append_cons characters (Bool.eq_false_iff.mpr other) unmade]
      exact ih (List.forall_mem_nil _)

end Term

namespace Filter

/-- A directive that is not a single word sets no level for all components. It sets what the terms
say that one pass over its equals signs takes, as far as their words name levels, the last for a
component counting. In every text these terms are the matches of the pattern, found from left to
right. -/
theorem ofDirective_passed {directive : String} (terms : ¬ IsWord directive) :
    let set := (Term.pass (Text.trim directive.toList)).filterMap Term.entry?
    (ofDirective directive).overall = none ∧
      ofDirective directive = ofEntries set ∧
      (∀ component, (ofDirective directive).components.lookup component =
        (set.filter (·.1 == component)).getLast?.map Prod.snd) ∧
      ∀ text, (Term.pattern.all text).map Text.Match.groups = (Term.pass text).map Term.groups := by
  intro set
  have whole : ofDirective directive = ofEntries set := by
    rw [ofDirective_of_not_isWord terms, foldl_apply, ← Term.pass_eq]
    rfl
  refine ⟨?_, whole, ?_, ?_⟩
  · rw [ofDirective_of_not_isWord terms, overall_foldl_apply]
  · intro component
    rw [whole, ofEntries, lookup_foldl_set]
    exact Option.or_none
  · intro text
    rw [Term.pass_eq]
    exact Term.map_groups_all_append (List.forall_mem_nil _)

/-- A word is consumed whether or not it names a level, so it ends no name, and what is left of a
name may begin with a dash. -/
theorem ofDirective_passed_at_consumed_words :
    let filter := ofDirective "a=debug-b=info,c=d=info"
    filter.overall = none ∧ filter.components.lookup "a" = some .debug ∧
      filter.components.lookup "_b" = some .info ∧ filter.components.lookup "c" = none ∧
      filter.components.lookup "d" = none := by
  have terms : ¬ IsWord "a=debug-b=info,c=d=info" := by
    rintro ⟨-, letters⟩
    exact absurd letters (by decide +kernel)
  obtain ⟨none, -, lookup, -⟩ := ofDirective_passed terms
  have set : (Term.pass (Text.trim "a=debug-b=info,c=d=info".toList)).filterMap Term.entry? =
      [("a", .debug), ("_b", .info)] := by decide +kernel
  rw [set] at lookup
  exact ⟨none, lookup "a", lookup "_b", lookup "c", lookup "d"⟩

end Filter

end LoxLexer.Log
