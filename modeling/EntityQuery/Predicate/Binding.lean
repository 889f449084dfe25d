import EntityQuery.Candidate.Basic
import EntityQuery.Predicate.Error
import EntityQuery.Scene

/-!
# Bindings

A predicate refers to things by dotted paths.  The first segment is the root: the candidate under test
(`entity`), the entity that asks (`actor`), the place (`location`), or else a variable of the scene.
The rest leads into it: through a value member by member and element by element, and from an entity to
its identifier (`id`) or into its data (`components.name`).  A path that leads nowhere is `null`; only
a root that is bound to nothing is an error.
-/

namespace EntityQuery.Predicate

/-- What the paths of a predicate lead into. -/
structure Bindings where
  scene : Scene
  actor : EntityId
  /-- The candidate under test, if there is one. -/
  subject : Option Candidate := none

/-- The parts of a text between points that are not empty. -/
def segments (path : String) : List String :=
  ((path.toList.splitOn '.').filter (¬ ·.isEmpty)).map String.ofList

/-- One step into a value. -/
def child? (segment : String) : Json → Option Json
  | .obj ms => Entries.get? segment ms
  | .arr vs => do vs[← Number.readIndex? segment.toList]?
  | _       => none

/-- Where a path into a value leads; `null` if nowhere. -/
def walk (v : Json) : List String → Json
  | []      => v
  | s :: ss =>
      match child? s v with
      | some w => walk w ss
      | none   => .null

namespace Bindings

/-- Where a path from an entity leads. -/
def entityPath (b : Bindings) (id : EntityId) : List String → Except PredicateError Json
  | []                              => .ok (.str id)
  | ["id"]                          => .ok (.str id)
  | "components" :: component :: ss =>
      match b.scene.world.component? id component with
      | .ok (some data) => .ok (walk data ss)
      | .ok none        => .ok .null
      | .error fault    => .error (.unread fault)
  | _                               => .ok .null

/-- Where a path from the candidate under test leads. -/
def subjectPath (b : Bindings) (path : List String) : Except PredicateError Json :=
  match b.subject with
  | some (.entity id)    => b.entityPath id path
  | some (.value v)      => .ok (walk v path)
  | some (.descriptor _) => .ok .null
  | none                 => .ok .null

/-- Where a path leads. -/
def lookup (b : Bindings) (path : String) : Except PredicateError Json :=
  match segments path with
  | []         => b.subjectPath []
  | root :: ss =>
      if root = "entity" then b.subjectPath ss
      else if root = "actor" then b.entityPath b.actor ss
      else if root = "location" then
        match b.scene.location with
        | some place => b.entityPath place ss
        | none       => .ok .null
      else match b.scene.vars.get? root with
        | some v => .ok (walk v ss)
        | none   => .error (.unknownVariable path)

end Bindings

end EntityQuery.Predicate
