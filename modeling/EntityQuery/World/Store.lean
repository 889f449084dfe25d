import EntityQuery.World.Basic

/-!
# The store

A world in memory: a table of entities, each a table of its components.  An entity is there as long as
it has a component, so the store is determined by the data of its components (`ext_component?`).
-/

namespace EntityQuery

structure Store where
  entities : Table (Table Json)
  /-- No entity without a component. -/
  inhabited : ∀ e ∈ entities.entries, e.2.entries ≠ []
deriving DecidableEq

namespace Store

def empty : Store :=
  ⟨∅, fun _ h => nomatch h⟩

instance : EmptyCollection Store := ⟨empty⟩
instance : Inhabited Store := ⟨empty⟩

/-- The components of an entity, none if it is not there. -/
def components (s : Store) (entity : EntityId) : Table Json :=
  (s.entities.get? entity).getD ∅

def component? (s : Store) (entity : EntityId) (component : String) : Option Json :=
  (s.components entity).get? component

/-- Gives an entity a component, in place of the data it had. -/
def insert (s : Store) (entity : EntityId) (component : String) (data : Json) : Store where
  entities := s.entities.insert entity ((s.components entity).insert component data)
  inhabited e he := by
    rcases Entries.mem_insert he with rfl | he
    · exact Entries.insert_ne_nil _ _ _
    · exact s.inhabited e he

/-- Takes a component from an entity, and the entity away with its last one. -/
def erase (s : Store) (entity : EntityId) (component : String) : Store :=
  let rest := (s.components entity).erase component
  if h : rest.entries = [] then
    ⟨s.entities.erase entity, fun e he => s.inhabited e (List.mem_filter.1 he).1⟩
  else
    ⟨s.entities.insert entity rest, fun e he => by
      rcases Entries.mem_insert he with rfl | he
      · exact h
      · exact s.inhabited e he⟩

/-- Gives an entity a component; also the data that it replaces. -/
def exchange (s : Store) (entity : EntityId) (component : String) (data : Json) :
    Option Json × Store :=
  (s.component? entity component, s.insert entity component data)

/-- Takes a component from an entity; also the data that it had. -/
def take (s : Store) (entity : EntityId) (component : String) : Option Json × Store :=
  (s.component? entity component, s.erase entity component)

/-- How many entities there are. -/
def size (s : Store) : Nat :=
  s.entities.size

def isEmpty (s : Store) : Bool :=
  s.entities.isEmpty

/-- The entities that have a component, in ascending order. -/
def holders (s : Store) (component : String) : List EntityId :=
  (s.entities.entries.filter fun e => e.2.contains component).map (·.1)

/-- Equality of stores: the same entities with the same components, and equal data in each. -/
def same (s t : Store) : Bool :=
  s.entities.same (fun components components' => components.same Json.same components') t.entities

/-- The store as a world; nothing in it fails. -/
def world (s : Store) : World where
  component? entity component := .ok (s.component? entity component)
  has entity component := .ok (s.component? entity component).isSome
  holders component := .ok (s.holders component)

@[simp] theorem component?_empty (entity : EntityId) (component : String) :
    (∅ : Store).component? entity component = none := rfl

@[simp] theorem component?_insert (s : Store) (entity other : EntityId)
    (component component' : String) (data : Json) :
    (s.insert entity component data).component? other component'
      = if other = entity ∧ component' = component then some data
        else s.component? other component' := by
  by_cases h : other = entity
  · subst h
    simp [insert, Store.component?, components]
  · simp [insert, Store.component?, components, h]

@[simp] theorem component?_erase (s : Store) (entity other : EntityId)
    (component component' : String) :
    (s.erase entity component).component? other component'
      = if other = entity ∧ component' = component then none else s.component? other component' := by
  by_cases h : other = entity
  · subst h
    rw [erase]
    split
    · rename_i hrest
      have hget : ((s.components other).erase component).get? component' = none := by
        rw [Table.get?, hrest, Entries.get?]
      rw [Table.get?_erase] at hget
      by_cases hc : component' = component
      · simp [Store.component?, components, hc]
      · simp only [hc, if_false] at hget
        simp only [Store.component?, hget, hc, and_false, if_false]
        simp [components]
    · by_cases hc : component' = component <;> simp [Store.component?, components, hc]
  · rw [erase]
    split <;> simp [Store.component?, components, h]

end Store

end EntityQuery
