import LoxLexer.Proofs.Source.Proper

/-! # Patterns

Patterns of characters as regular expressions have them, and the search for them. A pattern may
match the beginning of a text in several ways (`Pattern.ways`), of which the one that tries first
what comes first and takes as much as it can is preferred. The matches in a text are found from left
to right: each begins as early as possible, is the preferred one there, and is followed by those in
the rest of the text (`Pattern.all`). After a run of one class that is taken as a whole or not at
all, only the whole run has to be tried (`Pattern.head?_ways_run`). -/

namespace LoxLexer.Text

inductive Pattern where
  /-- One character of a class. -/
  | one (accepts : Char → Bool)
  /-- At least one character of a class. -/
  | many (accepts : Char → Bool)
  /-- A pattern whose text is kept. -/
  | group (inner : Pattern)
  /-- A pattern right behind another. -/
  | followedBy (first second : Pattern)

/-- A way to match the beginning of a text: what is taken, what is kept of it by groups, and what is
left. -/
structure Match where
  taken : List Char
  groups : List (List Char)
  rest : List Char
  deriving DecidableEq, Repr

namespace Match

/-- The match with one more character before it. -/
def behind (c : Char) (found : Match) : Match :=
  { found with taken := c :: found.taken }

/-- The match with its own text kept before what its groups keep. -/
def grouped (found : Match) : Match :=
  { found with groups := found.taken :: found.groups }

/-- The match that goes on with one of what is left. -/
def append (first second : Match) : Match where
  taken := first.taken ++ second.taken
  groups := first.groups ++ second.groups
  rest := second.rest

end Match

namespace Pattern

/-- The runs of a class at the beginning of a text, the longest first. -/
def runs (accepts : Char → Bool) : List Char → List Match
  | [] => []
  | c :: cs =>
    if accepts c then (runs accepts cs).map (Match.behind c) ++ [⟨[c], [], cs⟩] else []

/-- The ways in which the pattern matches the beginning of a text, the preferred first. -/
def ways : Pattern → List Char → List Match
  | one _, [] => []
  | one accepts, c :: cs => if accepts c then [⟨[c], [], cs⟩] else []
  | many accepts, cs => runs accepts cs
  | group inner, cs => (inner.ways cs).map Match.grouped
  | followedBy first second, cs =>
    (first.ways cs).flatMap fun found => (second.ways found.rest).map found.append

/-- The match that begins earliest. -/
def first? (pattern : Pattern) : List Char → Option Match
  | [] => (pattern.ways []).head?
  | c :: cs => (pattern.ways (c :: cs)).head?.or (pattern.first? cs)

/-! ## Every match takes something -/

/-- A run takes at least one character. -/
theorem length_rest_of_mem_runs {accepts : Char → Bool} {cs : List Char} {found : Match}
    (member : found ∈ runs accepts cs) : found.rest.length < cs.length := by
  induction cs generalizing found with
  | nil => cases member
  | cons c cs ih =>
      unfold runs at member
      split at member
      · rcases List.mem_append.mp member with longer | single
        · obtain ⟨shorter, inside, rfl⟩ := List.mem_map.mp longer
          have rest : shorter.rest.length < cs.length := ih inside
          exact Nat.lt_succ_of_lt rest
        · rw [List.mem_singleton.mp single]
          exact Nat.lt_succ_self _
      · cases member

theorem length_rest_of_mem_ways {pattern : Pattern} {cs : List Char} {found : Match}
    (member : found ∈ pattern.ways cs) : found.rest.length < cs.length := by
  induction pattern generalizing cs found with
  | one accepts =>
      cases cs with
      | nil => cases member
      | cons c cs =>
          unfold ways at member
          split at member
          · rw [List.mem_singleton.mp member]
            exact Nat.lt_succ_self _
          · cases member
  | many accepts => exact length_rest_of_mem_runs member
  | group inner ih =>
      obtain ⟨bare, inside, rfl⟩ := List.mem_map.mp member
      have rest : bare.rest.length < cs.length := ih inside
      exact rest
  | followedBy first second ih_first ih_second =>
      obtain ⟨before, first_member, later⟩ := List.mem_flatMap.mp member
      obtain ⟨after, second_member, rfl⟩ := List.mem_map.mp later
      exact (ih_second second_member).trans (ih_first first_member)

theorem length_rest_of_first? {pattern : Pattern} {cs : List Char} {found : Match}
    (first : pattern.first? cs = some found) : found.rest.length < cs.length := by
  induction cs with
  | nil => exact length_rest_of_mem_ways (List.mem_of_head? first)
  | cons c cs ih =>
      rcases Option.or_eq_some_iff.mp first with here | ⟨-, later⟩
      · exact length_rest_of_mem_ways (List.mem_of_head? here)
      · exact Nat.lt_succ_of_lt (ih later)

/-- The matches in a text, each in what the one before has left. -/
def all (pattern : Pattern) (cs : List Char) : List Match :=
  match _found : pattern.first? cs with
  | none => []
  | some first => first :: pattern.all first.rest
termination_by cs.length
decreasing_by exact length_rest_of_first? _found

variable {pattern : Pattern} {cs : List Char}

/-- Without a first match there is none. -/
theorem all_of_first?_eq_none (none : pattern.first? cs = none) : pattern.all cs = [] := by
  unfold all
  split
  · rfl
  · rename_i found
    rw [none] at found
    cases found

/-- The matches in a text are the first and those in the rest. -/
theorem all_of_first? {first : Match} (found : pattern.first? cs = some first) :
    pattern.all cs = first :: pattern.all first.rest := by
  rw [all]
  split
  · rename_i none
    rw [none] at found
    cases found
  · rename_i other same
    obtain rfl : other = first := Option.some.inj (same.symm.trans found)
    rfl

/-- Where the pattern matches at the beginning, that match is the first. -/
theorem first?_of_ways {first : Match} (found : (pattern.ways cs).head? = some first) :
    pattern.first? cs = some first := by
  cases cs with
  | nil => exact found
  | cons c cs => rw [first?, found, Option.some_or]

/-- Where the pattern does not match at the beginning, the search goes on behind a character. -/
theorem first?_cons {c : Char} (none : (pattern.ways (c :: cs)).head? = none) :
    pattern.first? (c :: cs) = pattern.first? cs := by
  rw [first?, none, Option.none_or]

/-- Where no match begins, the search goes on with the next character. -/
theorem all_cons {c : Char} (none : (pattern.ways (c :: cs)).head? = none) :
    pattern.all (c :: cs) = pattern.all cs := by
  cases found : pattern.first? cs with
  | none => rw [all_of_first?_eq_none found, all_of_first?_eq_none ((first?_cons none).trans found)]
  | some first => rw [all_of_first? found, all_of_first? ((first?_cons none).trans found)]

/-- A text in which no match begins is skipped. -/
theorem all_append {skipped : List Char}
    (unmatched : ∀ part, part <:+ skipped → part ≠ [] → (pattern.ways (part ++ cs)).head? = none) :
    pattern.all (skipped ++ cs) = pattern.all cs := by
  induction skipped with
  | nil => rfl
  | cons c skipped ih =>
      have here : (pattern.ways (c :: (skipped ++ cs))).head? = none :=
        unmatched (c :: skipped) List.suffix_rfl (List.cons_ne_nil _ _)
      rw [List.cons_append, all_cons here]
      exact ih fun part suffix => unmatched part (suffix.trans (List.suffix_cons c skipped))

/-! ## Runs -/

section Runs
variable {accepts : Char → Bool}

/-- Where no character of a class comes first, the class has no run. -/
theorem runs_of_takeWhile_eq_nil (empty : cs.takeWhile accepts = []) : runs accepts cs = [] := by
  cases cs with
  | nil => rfl
  | cons c cs =>
      unfold runs
      split
      · rename_i accepted
        rw [List.takeWhile_cons_of_pos accepted] at empty
        cases empty
      · rfl

/-- The first run is the whole, and behind any other there is more of it. -/
theorem exists_runs_eq_cons (some_run : cs.takeWhile accepts ≠ []) :
    ∃ others, runs accepts cs = ⟨cs.takeWhile accepts, [], cs.dropWhile accepts⟩ :: others ∧
      ∀ found ∈ others, ∃ c after, found.rest = c :: after ∧ accepts c = true := by
  induction cs with
  | nil => exact (some_run rfl).elim
  | cons c cs ih =>
      have accepted : accepts c = true := by
        by_contra other
        exact some_run (List.takeWhile_cons_of_neg other)
      rw [runs, if_pos accepted, List.takeWhile_cons_of_pos accepted,
        List.dropWhile_cons_of_pos accepted]
      by_cases last : cs.takeWhile accepts = []
      · have whole := List.takeWhile_append_dropWhile (p := accepts) (l := cs)
        rw [last, List.nil_append] at whole
        rw [runs_of_takeWhile_eq_nil last, last, whole]
        exact ⟨[], rfl, List.forall_mem_nil _⟩
      · obtain ⟨others, all_runs, more⟩ := ih last
        refine ⟨others.map (Match.behind c) ++ [⟨[c], [], cs⟩], by rw [all_runs]; rfl, ?_⟩
        intro found member
        rcases List.mem_append.mp member with longer | single
        · obtain ⟨shorter, inside, rfl⟩ := List.mem_map.mp longer
          exact more shorter inside
        · obtain rfl := List.mem_singleton.mp single
          obtain ⟨d, after, rfl⟩ : ∃ d after, cs = d :: after := by
            apply List.exists_cons_of_ne_nil
            rintro rfl
            exact last rfl
          refine ⟨d, after, rfl, ?_⟩
          by_contra other
          exact last (List.takeWhile_cons_of_neg other)

/-- The longest run of a class is preferred. -/
theorem head?_ways_many (accepts : Char → Bool) (cs : List Char) :
    ((many accepts).ways cs).head? =
      if cs.takeWhile accepts = [] then none
      else some ⟨cs.takeWhile accepts, [], cs.dropWhile accepts⟩ := by
  split
  · rename_i empty
    exact congrArg List.head? (runs_of_takeWhile_eq_nil empty)
  · rename_i some_run
    obtain ⟨others, all_runs, -⟩ := exists_runs_eq_cons some_run
    exact congrArg List.head? all_runs

/-- If a pattern begins with no character of a class, then behind a run of the class it is found
only where the whole run is taken. -/
theorem head?_ways_run {second : Pattern}
    (apart : ∀ c after, accepts c = true → second.ways (c :: after) = []) (cs : List Char) :
    ((followedBy (group (many accepts)) second).ways cs).head? =
      if cs.takeWhile accepts = [] then none
      else (second.ways (cs.dropWhile accepts)).head?.map
        (Match.append ⟨cs.takeWhile accepts, [cs.takeWhile accepts], cs.dropWhile accepts⟩) := by
  change (((runs accepts cs).map Match.grouped).flatMap
    fun found => (second.ways found.rest).map found.append).head? = _
  split
  · rename_i empty
    rw [runs_of_takeWhile_eq_nil empty]
    rfl
  · rename_i some_run
    obtain ⟨others, all_runs, more⟩ := exists_runs_eq_cons some_run
    have no_others : (others.map Match.grouped).flatMap
        (fun found => (second.ways found.rest).map found.append) = [] := by
      rw [List.flatMap_map, List.flatMap_eq_nil_iff]
      intro found member
      obtain ⟨c, after, rest, accepted⟩ := more found member
      change (second.ways found.rest).map _ = []
      rw [rest, apart c after accepted, List.map_nil]
    rw [all_runs, List.map_cons, List.flatMap_cons, no_others, List.append_nil, List.head?_map]
    rfl

end Runs

end Pattern

end LoxLexer.Text
