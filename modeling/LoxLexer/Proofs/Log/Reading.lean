import LoxLexer.Proofs.Log.Directive

/-! # How terms are read

The terms of a text, said without reading it character by character. A text holds a term where an
equals sign has a name character before it and a letter behind it. The first term that is read is
the first that the text holds, from the beginning of its name to the end of its word, and reading
goes on behind the word (`Term.Reads`). The terms that a directive is read for are these and no
others (`Term.reads_iff`). -/

namespace LoxLexer.Log.Term

/-- The term as it is written. -/
def text (term : Term) : List Char :=
  term.name ++ '=' :: term.word

/-- Somewhere in the text an equals sign has a name character before it and a letter behind it. -/
def Holds (text : List Char) : Prop :=
  ∃ c d, isNameCharacter c = true ∧ d.isAlpha = true ∧ [c, '=', d] <:+: text

/-- The text is read for these terms: each is the first in what is left of the text, its name begins
as early and its word ends as late as possible, and what is left is what stands behind the word. -/
inductive Reads : List Char → List Term → Prop
  | nothing {text : List Char} (unheld : ¬ Holds text) : Reads text []
  | term {before rest : List Char} {term : Term} {others : List Term} (proper : term.IsProper)
      (first : ¬ Holds (before ++ term.name))
      (begins : ∀ c ∈ before.getLast?, isNameCharacter c = false)
      (ends : ∀ c ∈ rest.head?, c.isAlpha = false) (behind : Reads rest others) :
      Reads (before ++ term.text ++ rest) (term :: others)

/-! ## What a text holds -/

theorem not_isNameCharacter_equals : isNameCharacter '=' = false := rfl

/-- A text holds a term if a part of it does. -/
theorem Holds.of_infix {part text : List Char} (holds : Holds part) (inside : part <:+: text) :
    Holds text := by
  obtain ⟨c, d, character, letter, place⟩ := holds
  exact ⟨c, d, character, letter, place.trans inside⟩

/-- A text of name characters has no equals sign. -/
theorem not_holds_of_name {name : List Char} (characters : ∀ c ∈ name, isNameCharacter c = true) :
    ¬ Holds name := by
  rintro ⟨c, d, -, -, place⟩
  have equals : '=' ∈ [c, '=', d] := List.mem_cons_of_mem _ List.mem_cons_self
  have character := characters '=' (place.subset equals)
  rw [not_isNameCharacter_equals] at character
  cases character

/-- An equals sign with a name before it and a letter behind it is held. -/
theorem holds_of_equals {name rest : List Char} (named : name ≠ [])
    (characters : ∀ c ∈ name, isNameCharacter c = true)
    (worded : rest.takeWhile Char.isAlpha ≠ []) : Holds (name ++ '=' :: rest) := by
  obtain ⟨front, c, rfl⟩ := (List.eq_nil_or_concat name).resolve_left named
  cases rest with
  | nil => exact (worded rfl).elim
  | cons d rest =>
      have letter : d.isAlpha = true := by
        by_contra other
        exact worded (List.takeWhile_cons_of_neg other)
      refine ⟨c, d, characters c (by simp), letter, front, rest, ?_⟩
      simp

/-- A character that is not part of a name, and is no equals sign between a name and a letter, keeps
what stands before it apart from what stands behind. -/
theorem not_holds_append_cons {name rest : List Char} {c : Char}
    (characters : ∀ d ∈ name, isNameCharacter d = true) (other : isNameCharacter c = false)
    (apart : c = '=' → name ≠ [] → ∀ d ∈ rest.head?, d.isAlpha = false) (unheld : ¬ Holds rest) :
    ¬ Holds (name ++ c :: rest) := by
  rintro ⟨d, e, character, letter, place⟩
  have behind : ¬ [d, '=', e] <:+: rest := fun inside => unheld ⟨d, e, character, letter, inside⟩
  induction name with
  | nil =>
      rcases List.infix_cons_iff.mp place with here | later
      · obtain ⟨rfl, -⟩ := List.cons_prefix_cons.mp here
        rw [character] at other
        cases other
      · exact behind later
  | cons first name ih =>
      obtain ⟨-, others⟩ := List.forall_mem_cons.mp characters
      rcases List.infix_cons_iff.mp place with here | later
      · obtain ⟨-, equals⟩ := List.cons_prefix_cons.mp here
        cases name with
        | nil =>
            obtain ⟨rfl, word⟩ := List.cons_prefix_cons.mp equals
            obtain ⟨after, rfl⟩ := word
            rw [apart rfl (List.cons_ne_nil _ _) e rfl] at letter
            cases letter
        | cons second name =>
            obtain ⟨rfl, -⟩ := List.cons_prefix_cons.mp equals
            have character := others '=' List.mem_cons_self
            rw [not_isNameCharacter_equals] at character
            cases character
      · exact ih others (fun equals _ => apart equals (List.cons_ne_nil _ _)) later

/-! ## What is read -/

/-- In a text that holds no term none is read. -/
theorem ofText_of_not_holds {name text : List Char}
    (characters : ∀ c ∈ name, isNameCharacter c = true) (unheld : ¬ Holds (name ++ text)) :
    ofText name text = [] := by
  fun_induction ofText name text with
  | case1 => rfl
  | case2 name c rest first ih =>
      rw [List.append_cons] at unheld
      exact ih (by simpa [or_imp, forall_and, first] using characters) unheld
  | case3 name c rest other word made ih =>
      obtain ⟨rfl, named, worded⟩ := made
      exact (unheld (holds_of_equals named characters worded)).elim
  | case4 name c rest other word unmade ih =>
      refine ih (List.forall_mem_nil _) fun holds => unheld (holds.of_infix ?_)
      exact ⟨name ++ [c], [], by simp⟩

/-- Reading goes without a term to the beginning of a name, if none is held up to its end. -/
theorem ofText_append_name {before name rest : List Char} (named : name ≠ [])
    (begins : ∀ c ∈ before.getLast?, isNameCharacter c = false)
    {earlier : List Char} (characters : ∀ c ∈ earlier, isNameCharacter c = true)
    (apart : before = [] → earlier = []) (unheld : ¬ Holds (earlier ++ before ++ name)) :
    ofText earlier (before ++ (name ++ rest)) = ofText [] (name ++ rest) := by
  induction before generalizing earlier with
  | nil => rw [apart rfl, List.nil_append]
  | cons c before ih =>
      have begins_later : ∀ d ∈ before.getLast?, isNameCharacter d = false := by
        intro d last
        refine begins d ?_
        rw [List.getLast?_cons, Option.mem_def.mp last]
        rfl
      by_cases character : isNameCharacter c = true
      · have more : before ≠ [] := by
          rintro rfl
          rw [begins c rfl] at character
          cases character
        rw [List.cons_append, ofText, if_pos character]
        apply ih begins_later
        · simpa [or_imp, forall_and, character] using characters
        · exact fun none => (more none).elim
        · simpa using unheld
      · have unmade : ¬ (c = '=' ∧ earlier ≠ [] ∧
            (before ++ (name ++ rest)).takeWhile Char.isAlpha ≠ []) := by
          rintro ⟨rfl, named_earlier, worded⟩
          -- The letter behind the equals sign stands before the end of the name.
          have worded_here : (before ++ name).takeWhile Char.isAlpha ≠ [] := by
            intro none
            apply worded
            obtain ⟨d, others, whole⟩ :=
              List.exists_cons_of_ne_nil (List.append_ne_nil_of_right_ne_nil before named)
            rw [← List.append_assoc, whole]
            rw [whole] at none
            by_cases letter : d.isAlpha = true
            · rw [List.takeWhile_cons_of_pos letter] at none
              cases none
            · exact List.takeWhile_cons_of_neg letter
          apply unheld
          rw [List.append_assoc]
          exact holds_of_equals named_earlier characters worded_here
        rw [List.cons_append, ofText, if_neg character]
        refine (if_neg unmade).trans (ih begins_later (List.forall_mem_nil _) (fun _ => rfl) ?_)
        refine fun holds => unheld (holds.of_infix ?_)
        exact ⟨earlier ++ [c], [], by simp⟩

/-- A text is read for at most one list of terms: those that the program reads. -/
theorem Reads.ofText_eq {text : List Char} {terms : List Term} (reads : Reads text terms) :
    ofText [] text = terms := by
  induction reads with
  | nothing unheld => exact ofText_of_not_holds (List.forall_mem_nil _) unheld
  | @term before rest term others proper first begins ends behind ih =>
      rw [Term.text, List.append_assoc, List.append_assoc,
        ofText_append_name proper.name_ne_nil begins (List.forall_mem_nil _) (fun _ => rfl) first,
        ofText_name proper.name_character, List.nil_append,
        ofText_equals proper.name_ne_nil proper.word_ne_nil proper.word_letter ends, ih]

/-- What is read behind a character that keeps it apart is read of the whole. -/
theorem Reads.append_cons {name rest : List Char} {c : Char} {terms : List Term}
    (reads : Reads rest terms) (characters : ∀ d ∈ name, isNameCharacter d = true)
    (other : isNameCharacter c = false)
    (apart : c = '=' → name ≠ [] → ∀ d ∈ rest.head?, d.isAlpha = false) :
    Reads (name ++ c :: rest) terms := by
  cases reads with
  | nothing unheld => exact .nothing (not_holds_append_cons characters other apart unheld)
  | @term before rest term others proper first begins ends behind =>
      have whole : name ++ c :: (before ++ term.text ++ rest) =
          (name ++ c :: before) ++ term.text ++ rest := by
        simp
      rw [whole]
      refine .term proper ?_ ?_ ends behind
      · rw [List.append_assoc, List.cons_append]
        refine not_holds_append_cons characters other ?_ first
        intro equals named d begin
        apply apart equals named d
        have some_name : before ++ term.name ≠ [] :=
          List.append_ne_nil_of_right_ne_nil before proper.name_ne_nil
        rw [Term.text, ← List.append_assoc, List.append_assoc, List.head?_append,
          Option.mem_def.mp begin]
        rfl
      · intro d last
        rw [List.getLast?_append, List.getLast?_cons] at last
        cases ending : before.getLast? with
        | none =>
            rw [ending] at last
            obtain rfl : c = d := Option.some.inj last
            exact other
        | some e =>
            rw [ending] at last
            obtain rfl : e = d := Option.some.inj last
            exact begins e ending

/-- What the program reads is what the text is read for. -/
theorem reads_ofText {name text : List Char} (characters : ∀ c ∈ name, isNameCharacter c = true) :
    Reads (name ++ text) (ofText name text) := by
  fun_induction ofText name text with
  | case1 name =>
      rw [List.append_nil]
      exact .nothing (not_holds_of_name characters)
  | case2 name c rest first ih =>
      rw [List.append_cons]
      exact ih (by simpa [or_imp, forall_and, first] using characters)
  | case3 name c rest other word made ih =>
      obtain ⟨rfl, named, worded⟩ := made
      have proper : IsProper ⟨name, word⟩ :=
        ⟨named, characters, worded, fun d inside => List.mem_takeWhile_imp inside⟩
      have whole : name ++ '=' :: rest =
          [] ++ text ⟨name, word⟩ ++ rest.dropWhile Char.isAlpha := by
        have word_rest : word ++ rest.dropWhile Char.isAlpha = rest :=
          List.takeWhile_append_dropWhile
        simp [text, word_rest]
      have begins : ∀ c ∈ ([] : List Char).getLast?, isNameCharacter c = false :=
        fun c last => (Option.not_mem_none c last).elim
      rw [whole]
      exact .term proper (not_holds_of_name characters) begins
        (eq_false_of_mem_head?_dropWhile rest) (ih (List.forall_mem_nil _))
  | case4 name c rest other word unmade ih =>
      refine (ih (List.forall_mem_nil _)).append_cons characters (Bool.eq_false_iff.mpr other) ?_
      intro equals named d first
      rw [Bool.eq_false_iff]
      intro letter
      refine unmade ⟨equals, named, ?_⟩
      obtain ⟨after, rfl⟩ : ∃ after, rest = d :: after := List.head?_eq_some_iff.mp first
      exact fun none => List.cons_ne_nil d _ ((List.takeWhile_cons_of_pos letter).symm.trans none)

/-- A text is read for the terms that it is read for character by character, and for no others. -/
theorem reads_iff {text : List Char} {terms : List Term} :
    Reads text terms ↔ ofText [] text = terms := by
  constructor
  · exact Reads.ofText_eq
  · rintro rfl
    exact reads_ofText (List.forall_mem_nil _)

end LoxLexer.Log.Term
