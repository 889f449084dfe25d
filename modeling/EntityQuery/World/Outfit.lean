import EntityQuery.Attire.Outfit
import EntityQuery.World.Basic

/-!
# Outfits in the world

What somebody wears is in the component `clothing:equipment`, and what an item covers in the item's own
component `clothing:coverage_mapping`.  Somebody without the component wears nothing.  Data of the wrong
form is remarked on and taken for absent, but a reading that fails has no outfit.

The outfit and the remarks are two functions of the world; where a reading fails there is no outfit, and
the remarks are those up to there.
-/

namespace EntityQuery

open Attire

/-- The component of what an entity wears. -/
def equipmentComponent : String :=
  "clothing:equipment"

/-- The member of it that maps slots to items. -/
def equippedMember : String :=
  "equipped"

/-- The component of what an item covers. -/
def coverageComponent : String :=
  "clothing:coverage_mapping"

namespace World

/-- The outfit with what a worn item declares. -/
def withCoverage (w : World) (o : Outfit) (item : ItemId) : Except ReadFault Outfit := do
  match ← w.component? item coverageComponent with
  | none      => return o
  | some data =>
      match Coverage.ofJson item data with
      | .ok c    => return o.declare item c
      | .error _ => return o

/-- The outfit of the equipment, its items asked in order. -/
def outfitOf (w : World) (items : Equipment) : Except ReadFault Outfit :=
  items.toList.foldlM (fun o worn => w.withCoverage o worn.item) { items }

/-- What an entity wears. -/
def outfit (w : World) (entity : EntityId) : Except ReadFault Outfit := do
  match (← w.component? entity equipmentComponent).bind (·.member? equippedMember) with
  | none          => return {}
  | some equipped =>
      match Equipment.ofJson? equipped with
      | .error _  => return {}
      | .ok items => w.outfitOf items

/-- What there is to remark on data that is no declaration. -/
def coverageRemark (entity : EntityId) (e : AttireError) : Event where
  severity := .warn
  message := "ignoring malformed coverage mapping"
  fields := [("entity", .str entity), ("error", .str e.message)]

/-- What there is to remark on the coverage of worn items, up to a reading that fails. -/
def coverageRemarks (w : World) (entity : EntityId) : List ItemId → Log
  | []            => []
  | item :: items =>
      match w.component? item coverageComponent with
      | .error _        => []
      | .ok none        => w.coverageRemarks entity items
      | .ok (some data) =>
          match Coverage.ofJson item data with
          | .ok _    => w.coverageRemarks entity items
          | .error e => coverageRemark entity e :: w.coverageRemarks entity items

/-- What there is to remark on the attire of an entity. -/
def outfitRemarks (w : World) (entity : EntityId) : Log :=
  match w.component? entity equipmentComponent with
  | .error _ => []
  | .ok data =>
      match data.bind (·.member? equippedMember) with
      | none          => []
      | some equipped =>
          match Equipment.ofJson? equipped with
          | .error e  =>
              [{ severity := .warn
                 message := "ignoring malformed equipment"
                 fields := [("entity", .str entity), ("error", .str e.message)] }]
          | .ok items =>
              Equipment.remarks equipped ++ w.coverageRemarks entity (items.toList.map (·.item))

end World

end EntityQuery
