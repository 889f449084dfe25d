import EntityQuery.Json.Basic

/-!
# Worlds

A world is what can be read about entities and their components.  It answers every question the same
way each time it is asked, which is all that is known of it; any answer may be a fault.  An entity that
is not there has no components, and that is no fault.
-/

namespace EntityQuery

/-- Identifiers of entities are texts that nothing looks into. -/
abbrev EntityId := String

/-- Why a reading failed. -/
inductive ReadFault where
  | unavailable (reason : String)
  | unreadable (entity : EntityId) (component : String) (reason : String)
deriving DecidableEq

def ReadFault.message : ReadFault → String
  | unavailable reason => "entity store unavailable: " ++ reason
  | unreadable entity component reason =>
      "failed to read component '" ++ component ++ "' of entity " ++ entity ++ ": " ++ reason

structure World where
  /-- The data of a component of an entity, if it has it. -/
  component? : EntityId → String → Except ReadFault (Option Json)
  /-- Whether an entity has a component. -/
  has : EntityId → String → Except ReadFault Bool
  /-- The entities that have a component. -/
  holders : String → Except ReadFault (List EntityId)

end EntityQuery
