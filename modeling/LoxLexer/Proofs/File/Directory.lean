import Mathlib.Data.List.Infix
import Mathlib.Data.String.Basic
import LoxLexer.File.Directory

/-! # Reading in a directory

Names that lead from folder to folder are a route. A path of such names is followed name by name
(`Directory.foldlM_follow`), and reading it gives what is there: the content of a file, and
otherwise the reason why there is none (`Directory.read_pathOf`). In a directory in which nothing
lies below a file, every file is read under the path of its names (`Directory.read_of_lookup`), and
no path leads to anything but the files of the directory (`Directory.exists_lookup_of_read`). -/

namespace LoxLexer

namespace Directory

/-- The name can be that of something in a folder. -/
structure IsName (name : String) : Prop where
  ne_empty : name ≠ ""
  ne_dot : name ≠ "."
  ne_dots : name ≠ ".."
  no_slash : '/' ∉ name.toList
  no_nul : '\x00' ∉ name.toList
  short : name.utf8ByteSize ≤ longestName

/-- The names lead from folder to folder; what is at the end of them is not said. -/
structure IsRoute (directory : Directory) (names : List String) : Prop where
  isName : ∀ name ∈ names, IsName name
  folder : ∀ front, front <+: names → front ≠ names → directory.entryAt? front = some .folder

/-- The path of some names. -/
def pathOf (names : List String) : String :=
  "/".intercalate names

/-! ## Paths of names -/

/-- In a path of names there is a slash behind each name but the last. -/
theorem toList_pathOf_cons (first next : String) (rest : List String) :
    (pathOf (first :: next :: rest)).toList =
      first.toList ++ '/' :: (pathOf (next :: rest)).toList := by
  simp [pathOf, String.toList_intercalate, List.intercalate]

theorem pathOf_singleton (name : String) : pathOf [name] = name :=
  String.intercalate_singleton

/-- The names of a path of names are these names. -/
theorem namesOf_pathOf {names : List String} (some_name : names ≠ [])
    (isName : ∀ name ∈ names, IsName name) : namesOf (pathOf names) = names := by
  unfold namesOf
  induction names with
  | nil => exact (some_name rfl).elim
  | cons first rest ih =>
      obtain ⟨first_name, rest_name⟩ := List.forall_mem_cons.mp isName
      cases rest with
      | nil =>
          rw [pathOf_singleton, List.splitOn_eq_singleton first_name.no_slash, List.map_singleton,
            String.ofList_toList]
      | cons next rest =>
          rw [toList_pathOf_cons, List.splitOn_append_cons_self_of_not_mem first_name.no_slash,
            List.map_cons, String.ofList_toList, ih (List.cons_ne_nil next rest) rest_name]

/-- A path of names has no NUL in it. -/
theorem nul_notMem_pathOf {names : List String} (isName : ∀ name ∈ names, IsName name) :
    '\x00' ∉ (pathOf names).toList := by
  induction names with
  | nil => exact List.not_mem_nil
  | cons first rest ih =>
      obtain ⟨first_name, rest_name⟩ := List.forall_mem_cons.mp isName
      cases rest with
      | nil =>
          rw [pathOf_singleton]
          exact first_name.no_nul
      | cons next rest =>
          rw [toList_pathOf_cons, List.mem_append, List.mem_cons, not_or, not_or]
          exact ⟨first_name.no_nul, by decide, ih rest_name⟩

/-- A path of names begins with a character of the first of them. -/
theorem exists_head?_pathOf {names : List String} (some_name : names ≠ [])
    (isName : ∀ name ∈ names, IsName name) :
    ∃ c, (pathOf names).toList.head? = some c ∧ c ≠ '/' := by
  obtain ⟨first, rest, rfl⟩ := List.exists_cons_of_ne_nil some_name
  have first_name := isName first List.mem_cons_self
  have letters : first.toList ≠ [] := by
    intro empty
    exact first_name.ne_empty (String.toList_eq_nil_iff.mp empty)
  obtain ⟨c, others, whole⟩ := List.exists_cons_of_ne_nil letters
  have apart : c ≠ '/' := by
    rintro rfl
    exact first_name.no_slash (whole ▸ List.mem_cons_self)
  refine ⟨c, ?_, apart⟩
  cases rest with
  | nil => rw [pathOf_singleton, whole, List.head?_cons]
  | cons next rest => rw [toList_pathOf_cons, whole, List.cons_append, List.head?_cons]

/-! ## Following names -/

variable {directory : Directory}

/-- From a folder a name leads to what is there under it. -/
theorem follow_name {before : List String} {name : String} (isName : IsName name)
    (folder : directory.entryAt? before = some .folder) :
    directory.follow (.below before) name =
      if (directory.entryAt? (before ++ [name])).isSome then .ok (.below (before ++ [name]))
      else .error .noSuchFile := by
  unfold follow
  simp only [folder, isName.ne_empty, isName.ne_dot, isName.ne_dots, or_self, ↓reduceIte,
    Nat.not_lt.mpr isName.short]

/-- Names that lead from folder to folder are followed to their end, if there is something. -/
theorem foldlM_follow {before names : List String} (isName : ∀ name ∈ names, IsName name)
    (folder : ∀ front, front <+: names → front ≠ names →
      directory.entryAt? (before ++ front) = some .folder) (some_name : names ≠ []) :
    names.foldlM directory.follow (.below before) =
      if (directory.entryAt? (before ++ names)).isSome then .ok (.below (before ++ names))
      else .error .noSuchFile := by
  induction names generalizing before with
  | nil => exact (some_name rfl).elim
  | cons name rest ih =>
      obtain ⟨first_name, rest_name⟩ := List.forall_mem_cons.mp isName
      have here : directory.entryAt? before = some .folder := by
        have first := folder [] List.nil_prefix (List.cons_ne_nil name rest).symm
        rwa [List.append_nil] at first
      rw [List.foldlM_cons, follow_name first_name here]
      by_cases last : rest = []
      · subst last
        split <;> rfl
      · have next : directory.entryAt? (before ++ [name]) = some .folder := by
          apply folder [name] (List.prefix_append [name] rest)
          intro same
          exact last (List.tail_eq_of_cons_eq same).symm
        have further : ∀ front, front <+: rest → front ≠ rest →
            directory.entryAt? (before ++ [name] ++ front) = some .folder := by
          intro front inside shorter
          rw [List.append_assoc, List.singleton_append]
          refine folder (name :: front) (List.cons_prefix_cons.mpr ⟨rfl, inside⟩) ?_
          intro same
          exact shorter (List.tail_eq_of_cons_eq same)
        have later := ih rest_name further last
        rw [List.append_assoc, List.singleton_append] at later
        rw [next, Option.isSome_some, if_pos rfl]
        exact later

/-- A path of names is resolved by following the names from the directory. -/
theorem resolve_pathOf {names : List String} (some_name : names ≠ [])
    (isName : ∀ name ∈ names, IsName name) (short : (pathOf names).utf8ByteSize < refusedPath) :
    directory.resolve (pathOf names) = names.foldlM directory.follow (.below []) := by
  obtain ⟨c, first, apart⟩ := exists_head?_pathOf some_name isName
  have not_empty : pathOf names ≠ "" := by
    intro empty
    rw [empty] at first
    cases first
  have inside : (pathOf names).toList.head? ≠ some '/' := by
    rw [first]
    exact fun same => apart (Option.some.inj same)
  unfold resolve
  rw [if_neg not_empty, if_neg (Nat.not_le.mpr short), if_neg inside,
    namesOf_pathOf some_name isName]

/-! ## Reading -/

/-- Reading the path of a route gives what is at its end. -/
theorem read_pathOf {names : List String} (route : directory.IsRoute names)
    (some_name : names ≠ []) (short : (pathOf names).utf8ByteSize < refusedPath) :
    directory.read (pathOf names) = directory.contentAt names := by
  have followed : names.foldlM directory.follow (.below []) = _ :=
    foldlM_follow route.isName route.folder some_name
  unfold read
  rw [if_neg (nul_notMem_pathOf route.isName), resolve_pathOf some_name route.isName short,
    followed, List.nil_append]
  by_cases there : (directory.entryAt? names).isSome = true
  · rw [if_pos there]
  · rw [if_neg there, contentAt, Option.not_isSome_iff_eq_none.mp there]

/-- Nothing lies below a file. -/
def IsTree (directory : Directory) : Prop :=
  ∀ entry ∈ directory.entries, ∀ front, front <+: entry.1 → front ≠ entry.1 →
    ∀ content, directory.entries.lookup front ≠ some (.file content)

/-- Where something lies further down, there is a folder. -/
theorem entryAt?_of_prefix (tree : directory.IsTree) {entry : List String × Entry}
    (member : entry ∈ directory.entries) {front : List String} (inside : front <+: entry.1)
    (shorter : front ≠ entry.1) : directory.entryAt? front = some .folder := by
  unfold entryAt?
  cases listed : directory.entries.lookup front with
  | some found =>
      cases found with
      | folder => rfl
      | file content => exact (tree entry member front inside shorter content listed).elim
  | none =>
      have below : directory.entries.any (fun entry => front.isPrefixOf entry.1) = true :=
        List.any_eq_true.mpr ⟨entry, member, List.isPrefixOf_iff_prefix.mpr inside⟩
      simp [below]

/-- The names of an entry of a tree are a route. -/
theorem isRoute_of_mem (tree : directory.IsTree) {entry : List String × Entry}
    (member : entry ∈ directory.entries) (isName : ∀ name ∈ entry.1, IsName name) :
    directory.IsRoute entry.1 where
  isName := isName
  folder _ := entryAt?_of_prefix tree member

/-- A file of a tree is read under the path of its names. -/
theorem read_of_lookup (tree : directory.IsTree) {names : List String} {content : ByteArray}
    (held : directory.entries.lookup names = some (.file content))
    (isName : ∀ name ∈ names, IsName name) (some_name : names ≠ [])
    (short : (pathOf names).utf8ByteSize < refusedPath) :
    directory.read (pathOf names) = .ok content := by
  obtain ⟨before, after, whole, -⟩ := List.lookup_eq_some_iff.mp held
  have member : (names, Entry.file content) ∈ directory.entries := by simp [whole]
  rw [read_pathOf (isRoute_of_mem tree member isName) some_name short, contentAt, entryAt?, held]

/-- Where there is content, there is a file of the directory. -/
theorem lookup_of_contentAt {names : List String} {content : ByteArray}
    (held : directory.contentAt names = .ok content) :
    directory.entries.lookup names = some (.file content) := by
  unfold contentAt at held
  split at held
  · rename_i own found
    cases held
    unfold entryAt? at found
    split at found
    · rename_i entry listed
      rw [listed, found]
    · -- Nothing is listed under these names, so there is at most a folder.
      split at found <;> cases found
  · cases held
  · cases held

/-- Whatever the path, only a file of the directory is read. -/
theorem exists_lookup_of_read {path : String} {content : ByteArray}
    (found : directory.read path = .ok content) :
    ∃ names, directory.entries.lookup names = some (.file content) := by
  unfold read at found
  split at found
  · cases found
  · split at found
    · cases found
    · cases found
    · exact ⟨_, lookup_of_contentAt found⟩

end Directory

end LoxLexer
