import Mathlib.Data.List.Induction
import LoxLexer.Log.Logger
import LoxLexer.Proofs.Source.Proper

/-! # What filters let through

A target belongs to the component whose name it begins with, and a filter lets through from it the
records up to the level that the filter has for the component (`Filter.allows_iff`). Setting a level
changes it for one component and for no other (`Filter.lookup_set`). The maximum of a filter is no
less verbose than any of its levels (`Filter.exists_maximum_of_levelFor`), and is one of them
(`Filter.exists_levelFor_of_maximum`).

The levels of components are held in the order in which they were set, and the order means nothing:
two filters are one configuration if they have one overall level and find the same level under each
name (`Filter.Agrees`). -/

namespace LoxLexer.Log

namespace Level

theorem verbosity_injective {a b : Level} (same : a.verbosity = b.verbosity) : a = b := by
  cases a <;> cases b <;> first | rfl | cases same

instance : Std.IsLinearOrder Level where
  le_refl a := Nat.le_refl a.verbosity
  le_trans a _ _ := Nat.le_trans (n := a.verbosity)
  le_antisymm _ _ below above := verbosity_injective (Nat.le_antisymm below above)
  le_total a b := Nat.le_total a.verbosity b.verbosity

theorem max_def (a b : Level) : max a b = if a ≤ b then b else a :=
  rfl

instance : Std.LawfulOrderMax Level where
  max_eq_or a b := by
    rw [max_def]
    split
    · exact .inr rfl
    · exact .inl rfl
  max_le_iff a b c := by
    rw [max_def]
    split
    · rename_i ordered
      exact ⟨fun below => ⟨Std.le_trans ordered below, below⟩, fun both => both.2⟩
    · rename_i disordered
      have ordered : b ≤ a := (Std.le_total (a := a) (b := b)).resolve_left disordered
      exact ⟨fun below => ⟨below, Std.le_trans ordered below⟩, fun both => both.1⟩

end Level

/-! ## Components -/

/-- The name of a component: some lower-case letters and underscores. -/
structure IsComponent (name : String) : Prop where
  ne_empty : name ≠ ""
  characters : ∀ c ∈ name.toList, Filter.isComponentCharacter c = true

theorem isComponent_lox : IsComponent "lox" :=
  ⟨by decide, List.all_eq_true.mp (by decide)⟩

/-- A target in a component: the component itself, or a path that goes on from it. -/
structure Target where
  component : String
  path : Option String
  isComponent : IsComponent component

namespace Target

def text (target : Target) : String :=
  match target.path with
  | none => target.component
  | some path => target.component ++ "::" ++ path

end Target

namespace Filter

/-- A target is in the component that it is written with. -/
theorem componentOf?_target (target : Target) :
    componentOf? target.text = some target.component := by
  obtain ⟨component, path, named⟩ := target
  have letters : component.toList ≠ [] := by
    intro empty
    exact named.ne_empty (String.toList_eq_nil_iff.mp empty)
  have whole : (Target.mk component path named).text.toList.takeWhile isComponentCharacter =
      component.toList := by
    cases path with
    | none =>
        exact List.takeWhile_eq_self_iff.mpr named.characters
    | some path =>
        have colon : ∀ c ∈ ("::".toList ++ path.toList).head?, isComponentCharacter c = false := by
          intro c first
          obtain rfl : ':' = c := Option.some.inj first
          rfl
        change (component ++ "::" ++ path).toList.takeWhile _ = _
        rw [String.toList_append, String.toList_append, List.append_assoc]
        exact (span_append named.characters colon).1
  unfold componentOf?
  rw [whole]
  split
  · rename_i empty
    exact (letters empty).elim
  · rw [String.ofList_toList]

/-- A record is let through if it is within the level of the component of its target. -/
theorem allows_iff {filter : Filter} {target : String} {level : Level} :
    filter.allows target level = true ↔
      ∃ component ∈ componentOf? target, ∃ limit ∈ filter.levelFor component, level ≤ limit := by
  unfold allows
  cases componentOf? target with
  | none => simp
  | some component =>
      cases found : filter.levelFor component with
      | none => simp [found]
      | some limit => simp [found]

/-- From a target in a component come the records up to the level of the component. -/
theorem allows_target_iff {filter : Filter} {target : Target} {level : Level} :
    filter.allows target.text level = true ↔
      ∃ limit ∈ filter.levelFor target.component, level ≤ limit := by
  rw [allows_iff, componentOf?_target]
  simp

/-- The same as an equation: the level of the component decides. -/
theorem allows_target_eq (filter : Filter) (target : Target) (level : Level) :
    filter.allows target.text level = (filter.levelFor target.component).any (level ≤ ·) := by
  rw [Bool.eq_iff_iff, allows_target_iff, Option.any_eq_true]
  simp

/-! ## Levels of components -/

/-- A component has the level of all components, if there is one, and else its own. -/
theorem levelFor_eq (filter : Filter) (component : String) :
    filter.levelFor component = filter.overall.or (filter.components.lookup component) := by
  unfold levelFor
  cases filter.overall <;> rfl

/-- No component is named twice, so the levels held are those looked up. -/
theorem lookup_eq_some_iff {filter : Filter} {component : String} {level : Level} :
    filter.components.lookup component = some level ↔
      (component, level) ∈ filter.components := by
  constructor
  · intro found
    obtain ⟨before, after, whole, -⟩ := List.lookup_eq_some_iff.mp found
    rw [whole]
    exact List.mem_append_right _ List.mem_cons_self
  · intro held
    obtain ⟨before, after, whole⟩ := List.append_of_mem held
    refine List.lookup_eq_some_iff.mpr ⟨before, after, whole, ?_⟩
    have distinct := filter.nodup
    rw [whole, List.map_append, List.map_cons] at distinct
    obtain ⟨-, -, apart⟩ := List.nodup_append.mp distinct
    intro entry earlier
    exact bne_iff_ne.mpr
      (apart entry.1 (List.mem_map_of_mem earlier) component List.mem_cons_self).symm

/-- Where a level is set, a component holds it, and every other component what it held. -/
theorem mem_set {filter : Filter} {component name : String} {level held : Level} :
    (name, held) ∈ (filter.set component level).components ↔
      if name = component then held = level else (name, held) ∈ filter.components := by
  change (name, held) ∈ filter.others component ++ [(component, level)] ↔ _
  unfold others
  rw [List.mem_append, List.mem_filter, List.mem_singleton]
  by_cases same : name = component <;> simp [same]

/-- Where a level is set, it is found for its component, and for every other what was found. -/
theorem lookup_set (filter : Filter) (component : String) (level : Level) (name : String) :
    (filter.set component level).components.lookup name =
      if name = component then some level else filter.components.lookup name := by
  ext held
  rw [lookup_eq_some_iff, mem_set]
  split
  · exact eq_comm.trans (Option.some_inj).symm
  · exact lookup_eq_some_iff.symm

/-- When levels are set one after the other, a component has the level set last for it, if one is
set, and else the level that it had. -/
theorem lookup_foldl_set (filter : Filter) (entries : List (String × Level)) (name : String) :
    (entries.foldl (fun filter entry => filter.set entry.1 entry.2) filter).components.lookup name =
      ((entries.filter (·.1 == name)).getLast?.map Prod.snd).or
        (filter.components.lookup name) := by
  induction entries using List.reverseRecOn with
  | nil => rfl
  | append_singleton entries entry ih =>
      rw [List.foldl_append, List.foldl_cons, List.foldl_nil, lookup_set, ih, List.filter_append]
      by_cases same : name = entry.1
      · have kept : [entry].filter (·.1 == name) = [entry] := by simp [same]
        rw [if_pos same, kept, List.getLast?_concat]
        rfl
      · have dropped : [entry].filter (·.1 == name) = [] := by simp [Ne.symm same]
        rw [if_neg same, dropped, List.append_nil]

/-! ## The maximum -/

/-- A filter with a level for a component has a maximum, which is no less verbose. -/
theorem exists_maximum_of_levelFor {filter : Filter} {component : String} {limit : Level}
    (found : filter.levelFor component = some limit) :
    ∃ most, filter.maximum = some most ∧ limit ≤ most := by
  have held : limit ∈ filter.overall.toList ++ filter.components.map (·.2) := by
    rw [levelFor_eq, Option.or_eq_some_iff] at found
    rcases found with overall | ⟨-, entry⟩
    · exact List.mem_append_left _ (Option.mem_toList.mpr overall)
    · exact List.mem_append_right _ (List.mem_map_of_mem (lookup_eq_some_iff.mp entry))
  cases highest : filter.maximum with
  | none =>
      rw [List.max?_eq_none_iff.mp highest] at held
      cases held
  | some most => exact ⟨most, rfl, (List.max?_eq_some_iff.mp highest).2 limit held⟩

/-- Where a filter has a level for all components or levels for some, its maximum is a level that
it has for a component. -/
theorem exists_levelFor_of_maximum {filter : Filter} {most : Level}
    (one : filter.overall = none ∨ filter.components = [])
    (highest : filter.maximum = some most) :
    (∀ component, filter.levelFor component = some most) ∨
      ∃ entry ∈ filter.components, filter.levelFor entry.1 = some most := by
  have held := List.max?_mem highest
  rcases one with unset | empty
  · right
    rw [unset] at held
    obtain ⟨entry, member, rfl⟩ := List.mem_map.mp held
    refine ⟨entry, member, ?_⟩
    rw [levelFor_eq, unset, Option.none_or]
    exact lookup_eq_some_iff.mpr member
  · left
    intro component
    rw [empty, List.map_nil, List.append_nil] at held
    rw [levelFor_eq, Option.mem_toList.mp held, Option.some_or]

/-! ## Configurations -/

/-- The filters have one overall level and the same level under each name. -/
structure Agrees (a b : Filter) : Prop where
  overall : a.overall = b.overall
  lookup : ∀ component, a.components.lookup component = b.components.lookup component

theorem agrees_refl (filter : Filter) : filter.Agrees filter :=
  ⟨rfl, fun _ => rfl⟩

/-- It does not matter in which order the levels of two components are set. -/
theorem agrees_set_set (filter : Filter) {first second : String} (apart : first ≠ second)
    (level other : Level) :
    ((filter.set first level).set second other).Agrees
      ((filter.set second other).set first level) where
  overall := rfl
  lookup component := by
    simp only [lookup_set]
    by_cases is_first : component = first
    · rw [is_first, if_neg apart, if_pos rfl, if_pos rfl]
    · rw [if_neg is_first, if_neg is_first]

namespace Agrees
variable {a b : Filter} (agrees : a.Agrees b)
include agrees

/-- One configuration holds the same levels for the same components. -/
theorem mem_components_iff (entry : String × Level) :
    entry ∈ a.components ↔ entry ∈ b.components := by
  rw [← lookup_eq_some_iff, ← lookup_eq_some_iff, agrees.lookup]

/-- One configuration has one maximum. -/
theorem maximum_eq : a.maximum = b.maximum := by
  have same (level : Level) : level ∈ a.overall.toList ++ a.components.map (·.2) ↔
      level ∈ b.overall.toList ++ b.components.map (·.2) := by
    simp only [List.mem_append, List.mem_map, agrees.overall, agrees.mem_components_iff]
  unfold maximum
  ext most
  simp only [List.max?_eq_some_iff, same]

/-- One configuration lets the same through. -/
theorem allows_eq (target : String) (level : Level) :
    a.allows target level = b.allows target level := by
  have same : a.levelFor = b.levelFor := by
    funext component
    rw [levelFor_eq, levelFor_eq, agrees.overall, agrees.lookup]
  unfold allows
  rw [same]

end Agrees

end Filter

end LoxLexer.Log
