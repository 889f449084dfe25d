import EntityQuery.World.Basic

/-!
# Faults

A world can be made to fail at chosen readings.  A rule names the entity and the component it is about,
or leaves either open; the first rule that is about a reading decides how it fails, and a reading that
no rule is about is answered as before.  Whether an entity has a component is then found out by reading
the component.
-/

namespace EntityQuery

/-- A rule that lets readings fail. -/
structure FaultRule where
  entity : Option EntityId := none
  component : Option String := none
  reason : String := "fault"
  /-- Whether the whole world is out of reach then, and not just the component. -/
  unavailable : Bool := false
deriving DecidableEq

namespace FaultRule

def concernsEntity (r : FaultRule) (entity : EntityId) : Bool :=
  r.entity.all (· = entity)

def concernsComponent (r : FaultRule) (component : String) : Bool :=
  r.component.all (· = component)

end FaultRule

/-- The rules for reading components and those for listing who has one. -/
structure FaultPlan where
  reads : List FaultRule := []
  listings : List FaultRule := []
deriving DecidableEq

namespace FaultPlan

/-- How the reading of a component fails, if it does. -/
def readFault? (p : FaultPlan) (entity : EntityId) (component : String) : Option ReadFault :=
  (p.reads.find? fun r => r.concernsEntity entity ∧ r.concernsComponent component).map fun r =>
    if r.unavailable then .unavailable r.reason else .unreadable entity component r.reason

/-- How a listing fails, if it does.  Listings are about no entity. -/
def listingFault? (p : FaultPlan) (component : String) : Option ReadFault :=
  (p.listings.find? fun r => r.concernsComponent component).map fun r => .unavailable r.reason

/-- The world with the planned faults. -/
def applyTo (p : FaultPlan) (w : World) : World where
  component? := read
  has entity component := (read entity component).map Option.isSome
  holders component :=
    match p.listingFault? component with
    | some fault => .error fault
    | none       => w.holders component
where
  read (entity : EntityId) (component : String) : Except ReadFault (Option Json) :=
    match p.readFault? entity component with
    | some fault => .error fault
    | none       => w.component? entity component

end FaultPlan

end EntityQuery
