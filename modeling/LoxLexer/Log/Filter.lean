import LoxLexer.Log.Level

/-! # Log filters

Which records are let through: those up to one level from everywhere, or those up to a level of
their own from each named component, and nothing from the others. -/

namespace LoxLexer.Log

/-- A level for every component or levels for some. -/
structure Filter where
  overall : Option Level := none
  /-- The levels of components by name. -/
  components : List (String × Level) := []
  /-- No component is named twice. -/
  nodup : (components.map Prod.fst).Nodup := by simp
  deriving DecidableEq, Repr

namespace Filter

/-- The levels of the components other than one. -/
def others (filter : Filter) (component : String) : List (String × Level) :=
  filter.components.filter (·.1 != component)

theorem nodup_others (filter : Filter) (component : String) :
    ((filter.others component).map Prod.fst).Nodup :=
  filter.nodup.sublist (List.filter_sublist.map Prod.fst)

theorem not_mem_others (filter : Filter) (component : String) :
    component ∉ (filter.others component).map Prod.fst := by
  intro mem
  obtain ⟨entry, entry_mem, same⟩ := List.mem_map.mp mem
  have other := (List.mem_filter.mp entry_mem).2
  simp [same] at other

/-- The filter with a component's level set, replacing any level it had. -/
def set (filter : Filter) (component : String) (level : Level) : Filter where
  overall := filter.overall
  components := filter.others component ++ [(component, level)]
  nodup := by
    have added := List.nodup_cons.mpr
      ⟨filter.not_mem_others component, filter.nodup_others component⟩
    simpa using (List.perm_append_singleton _ _).nodup_iff.mpr added

/-- The most verbose level let through from a component. -/
def levelFor (filter : Filter) (component : String) : Option Level :=
  filter.overall <|> filter.components.lookup component

/-- The most verbose level let through from anywhere. -/
def maximum (filter : Filter) : Option Level :=
  (filter.overall.toList ++ filter.components.map (·.2)).max?

/-- A character of a component's name as it appears in a path. -/
def isComponentCharacter (c : Char) : Bool :=
  c.isLower || c == '_'

/-- The component that a target belongs to: its longest beginning of lower-case letters and
underscores, unless that is empty. -/
def componentOf? (target : String) : Option String :=
  match target.toList.takeWhile isComponentCharacter with
  | [] => none
  | name => some (String.ofList name)

/-- A record with this target and level is let through. -/
def allows (filter : Filter) (target : String) (level : Level) : Bool :=
  match (componentOf? target).bind filter.levelFor with
  | none => false
  | some limit => level ≤ limit

end Filter

end LoxLexer.Log
