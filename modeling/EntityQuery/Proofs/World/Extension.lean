import EntityQuery.Proofs.Support.Attempt
import EntityQuery.World.Fault
import EntityQuery.World.Outfit
import EntityQuery.World.Store

/-!
# Worlds that answer more

A world extends another one if it gives all the answers that the other gives (`World.Extends`).  It may
answer where the other fails, and what is read of the two is then the same, unless the other fails with
one of its faults (`World.Fails`).

* `World.Extends.outfit`: so it is for what somebody wears, which takes many readings.
* `FaultPlan.extends_applyTo`: a store extends what any plan of faults makes of it.
-/

namespace EntityQuery

open Attire (Equipment ItemId Outfit)

namespace World

/-- The faults with which a world fails at some reading. -/
inductive Fails (w : World) (fault : ReadFault) : Prop where
  | component {entity : EntityId} {component : String} (h : w.component? entity component = .error fault)
  | has {entity : EntityId} {component : String} (h : w.has entity component = .error fault)
  | holders {component : String} (h : w.holders component = .error fault)

/-- `w'` gives the answers of `w`, whatever else it answers. -/
structure Extends (w' w : World) : Prop where
  component? : ∀ {entity component data?}, w.component? entity component = .ok data? →
    w'.component? entity component = .ok data?
  has : ∀ {entity component holds}, w.has entity component = .ok holds →
    w'.has entity component = .ok holds
  holders : ∀ {component ids}, w.holders component = .ok ids → w'.holders component = .ok ids

/-- What is read of `w` and of `w'` is the same, unless it is a fault of `w`. -/
abbrev SameReading {α : Type} (w : World) : Except ReadFault α → Except ReadFault α → Prop :=
  Attempt.SameUnless w.Fails fun _ => False

namespace Extends

variable {w' w : World}

variable (h : w'.Extends w)
include h

theorem component?_same (entity : EntityId) (component : String) :
    w.SameReading (w.component? entity component) (w'.component? entity component) :=
  .of_ok (fun _ => h.component?) fun _ => .component

theorem has_same (entity : EntityId) (component : String) :
    w.SameReading (w.has entity component) (w'.has entity component) :=
  .of_ok (fun _ => h.has) fun _ => .has

theorem holders_same (component : String) :
    w.SameReading (w.holders component) (w'.holders component) :=
  .of_ok (fun _ => h.holders) fun _ => .holders

/-! ### Outfits -/

theorem withCoverage (o : Outfit) (item : ItemId) :
    w.SameReading (w.withCoverage o item) (w'.withCoverage o item) := by
  refine (h.component?_same item coverageComponent).bind fun data? => ?_
  cases data? with
  | none      => exact .ok o
  | some data =>
      simp only
      cases Attire.Coverage.ofJson item data <;> exact .ok _

theorem outfitOf (items : Equipment) : w.SameReading (w.outfitOf items) (w'.outfitOf items) :=
  .foldlM (fun (o : Outfit) (worn : Equipment.Worn) => h.withCoverage o worn.item) items.toList _

/-- **What somebody wears is the same**, unless a reading on the way to it fails. -/
theorem outfit (entity : EntityId) : w.SameReading (w.outfit entity) (w'.outfit entity) := by
  refine (h.component?_same entity equipmentComponent).bind fun data? => ?_
  cases data?.bind (·.member? equippedMember) with
  | none          => exact .ok _
  | some equipped =>
      simp only
      cases Equipment.ofJson? equipped with
      | error _  => exact .ok _
      | ok items => exact h.outfitOf items

end Extends

end World

/-! ### Planned faults -/

theorem FaultPlan.component?_of_applyTo (p : FaultPlan) (w : World) {entity : EntityId}
    {component : String} {data? : Option Json}
    (h : (p.applyTo w).component? entity component = .ok data?) :
    w.component? entity component = .ok data? := by
  have h : applyTo.read p w entity component = .ok data? := h
  unfold applyTo.read at h
  split at h
  · cases h
  · exact h

/-- **A store extends itself under any plan of faults.** -/
theorem FaultPlan.extends_applyTo (p : FaultPlan) (s : Store) :
    s.world.Extends (p.applyTo s.world) where
  component? := p.component?_of_applyTo s.world
  has h := by
    -- Whether an entity has a component is found out by reading it.
    obtain ⟨data?, hdata, rfl⟩ := Attempt.map_eq_ok.1 h
    cases p.component?_of_applyTo s.world hdata
    rfl
  holders {component ids} h := by
    simp only [applyTo] at h
    split at h
    · cases h
    · exact h

end EntityQuery
