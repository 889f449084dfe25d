import EntityQuery.Attire.BodySlot
import EntityQuery.Candidate.Set
import EntityQuery.Predicate.Evaluation
import EntityQuery.Resolution.Run
import EntityQuery.Settings
import EntityQuery.World.Outfit

/-!
# Contributions

A node with one branch looks at the candidates of its branch one by one, in order.  Each contributes
some candidates of its own, whatever the others are, and the set of the node is all that they
contribute (`Resolving.gather`).  Beside its candidates a contribution reports what the node counts.
-/

namespace EntityQuery

open Attire (BodySlot Strategy View)

/-- What holds throughout a query: who asks, in what scene and under which settings, and whether the way
to the answer is written down. -/
structure Asking where
  actor : EntityId
  scene : Scene
  settings : Settings := {}
  traced : Bool := false

/-- What a candidate contributes to the set of a node, and a report on how. -/
structure Contribution (ρ : Type) where
  found : List Candidate
  report : ρ

namespace Resolving

/-- The contributions of all candidates of a set, in order: the set of what they found, and the
reports. -/
def gather {ρ : Type} (contribute : Candidate → Resolving (Contribution ρ)) (parent : CandidateSet) :
    Resolving (CandidateSet × List ρ) := do
  let cs ← parent.toList.mapM contribute
  return (.ofList (cs.flatMap (·.found)), cs.map (·.report))

end Resolving

namespace Asking

/-- Writes an entry into the trace, if there is to be one. -/
def note (a : Asking) (entry : Trace.Entry) : Resolving Unit := do
  if a.traced then Resolving.note entry

/-- A descriptor where none belongs. -/
def unresolved {α : Type} (d : Descriptor) : Resolving α :=
  throw (.unresolvedDescriptor d.owner d.view)

/-! ### Fields -/

/-- The data of a field of a candidate: of an entity it is a component, of an object a member. -/
def fieldData? (a : Asking) (field : String) : Candidate → Resolving (Option Json)
  | .entity id    => Resolving.read (a.scene.world.component? id field)
  | .value v      => return v.member? field
  | .descriptor d => unresolved d

/-- What a candidate contributes to a step along a field: the candidates in its data. -/
def readField {ρ : Type} (a : Asking) (field : String) (report : ρ) (c : Candidate) :
    Resolving (Contribution ρ) := do
  match ← a.fieldData? field c with
  | some data => return ⟨Candidate.ofField data, report⟩
  | none      => return ⟨[], report⟩

/-! ### Attire -/

/-- What an entity wears. -/
def outfitOf (a : Asking) (entity : EntityId) : Resolving Attire.Outfit := do
  Resolving.remark (a.scene.world.outfitRemarks entity)
  Resolving.read (a.scene.world.outfit entity)

/-- How many slots were looked at how. -/
structure SlotCount where
  layerReads : Nat := 0
  rankings : Nat := 0
deriving DecidableEq

/-- The counts of several outfits together. -/
def SlotCount.total (counts : List SlotCount) : SlotCount :=
  counts.foldr (fun a b => ⟨a.layerReads + b.layerReads, a.rankings + b.rankings⟩) {}

/-- What a candidate contributes to a step to a view: a descriptor of its outfit or, in the array form,
the items that the view shows.  Plain values wear nothing. -/
def viewOutfit (a : Asking) (view : View) (isArray : Bool) : Candidate →
    Resolving (Contribution SlotCount)
  | .value _      => return ⟨[], {}⟩
  | .descriptor d => unresolved d
  | .entity id    => do
      let outfit ← a.outfitOf id
      if isArray then
        let finding ← Resolving.look (outfit.look a.settings.tieBreak view)
        Resolving.remark
          [{ severity := .debug
             message := "clothing flattened"
             fields := [("entity", .str id), ("mode", .str view.field),
               ("strategy", .str finding.strategy.name), ("items", .ofNat finding.items.length)] }]
        return ⟨finding.items.map .entity, ⟨finding.layerReads, finding.rankings⟩⟩
      else return ⟨[.descriptor ⟨id, view, outfit⟩], {}⟩

/-- What a candidate contributes to a step to a body slot: a descriptor, the items that its view shows of
the slot; any other candidate, its field of that name. -/
def viewSlot (a : Asking) (slot : BodySlot) : Candidate → Resolving (Contribution (Option Strategy))
  | .descriptor d => do
      let finding ← Resolving.look (d.outfit.lookAtSlot a.settings.tieBreak slot.name d.view)
      Resolving.remark
        [{ severity := .debug
           message := "slot resolved"
           fields := [("entity", .str d.owner), ("slot", .str slot.name), ("mode", .str d.view.field),
             ("strategy", .str finding.strategy.name), ("items", .ofNat finding.items.length)] }]
      return ⟨finding.items.map .entity, some finding.strategy⟩
  | c             => a.readField slot.name none c

/-! ### Predicates -/

/-- What a predicate finds in a candidate. -/
def test (a : Asking) (predicate : Json) (c : Candidate) : Except PredicateError Json :=
  Predicate.Bindings.evaluate { scene := a.scene, actor := a.actor, subject := some c } predicate

/-- What a candidate contributes to a filter: itself, if the predicate holds of it.  A predicate that
fails excludes the candidate and is reported, or ends the query if filters are strict; a reading that
fails always does. -/
def keep (a : Asking) (predicate : Json) (maker : String) (c : Candidate) :
    Resolving (Contribution Bool) := do
  if let .descriptor d := c then unresolved d
  match a.test predicate c with
  | .ok v                  => return ⟨if Predicate.truthy v then [c] else [], false⟩
  | .error (.unread fault) => throw (.unread fault)
  | .error e               =>
      if a.settings.strictFilters then throw (.filterFailed c.text e)
      Resolving.remark
        [{ severity := .warn
           message := "filter predicate failed, excluding"
           fields := [("candidate", .str c.text), ("error", .str e.message)] }]
      a.note
        { level := .warn
          message := "predicate failed"
          resolver := maker
          fields := .ofList [("candidate", .str c.text), ("error", .str e.message)] }
      return ⟨[], true⟩

/-! ### Flattening -/

/-- What a candidate contributes to a flattening: a list, its elements; a descriptor, the items that its
view shows; any other candidate, itself. -/
def flatten (a : Asking) : Candidate → Resolving (Contribution Unit)
  | .value (.arr vs) => return ⟨Candidate.ofField (.arr vs), ()⟩
  | .descriptor d    => do
      let finding ← Resolving.look (d.outfit.look a.settings.tieBreak d.view)
      return ⟨finding.items.map .entity, ()⟩
  | c                => return ⟨[c], ()⟩

end Asking

end EntityQuery
