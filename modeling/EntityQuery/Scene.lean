import EntityQuery.World.Basic

/-!
# Scenes

A scene is what a query is asked in: the world, the place, and the variables and named conditions that
its predicates may refer to.
-/

namespace EntityQuery

structure Scene where
  world : World
  location : Option EntityId := none
  vars : Table Json := ∅
  conditions : Table Json := ∅

end EntityQuery
