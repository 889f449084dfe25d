import EntityQuery.Answer
import EntityQuery.Query.Written
import EntityQuery.Resolution.Contribution
import EntityQuery.Resolution.Router

/-!
# Resolution

Every node of a query resolves to a set of candidates.  A resolver makes the set of a node from those of
its branches, which it has resolved first (`Resolver.resolve`); the dispatch around it bounds how deep a
query may go and how large a set may be, and finds the resolver (`Context.dispatch`).  A query is
resolved by doing so at every node, the depth growing by one with each branch (`Context.resolve`).
-/

namespace EntityQuery

open Attire (BodySlot Strategy View)

/-- What holds throughout a resolution. -/
structure Context extends Asking where
  router : Router := .standard

/-- The entry for a node: the size of what it got and of what it made, and what else there is to tell. -/
def Trace.Entry.summary (r : Resolver) (message : String) (parentSize resultSize : Nat)
    (more : List (String × Json)) : Trace.Entry :=
  { level := .info
    message
    resolver := r.name
    fields := .ofList
      (("parent_size", .ofNat parentSize) :: ("result_size", .ofNat resultSize) :: more) }

namespace Asking

/-- The set that a root stands for. -/
def fromRoot (a : Asking) (root : Root) : Resolving CandidateSet := do
  let result ← match root with
    | .actor              => pure (.ofEntities [a.actor])
    | .location           => pure (.ofEntities a.scene.location.toList)
    | .entities component => CandidateSet.ofEntities <$> Resolving.read (a.scene.world.holders component)
    | .none               => pure ∅
  a.note (.summary .source "source resolved" 0 result.size [("source", root.toJson)])
  return result

/-- The set of a step along a plain field. -/
def alongField (a : Asking) (field : String) (isArray : Bool) (parent : CandidateSet) :
    Resolving CandidateSet := do
  let (result, _) ← Resolving.gather (a.readField field ()) parent
  a.note (.summary .step "step resolved" parent.size result.size
    [("field", .str field), ("is_array", .bool isArray)])
  return result

/-- The set of a step along the field of a view. -/
def alongView (a : Asking) (view : View) (isArray : Bool) (parent : CandidateSet) :
    Resolving CandidateSet := do
  let (result, counts) ← Resolving.gather (a.viewOutfit view isArray) parent
  let total := SlotCount.total counts
  a.note (.summary .clothing "clothing step resolved" parent.size result.size
    ([("field", .str view.field), ("mode", .str view.field), ("is_array", .bool isArray)] ++
      if isArray then
        [("strategy", .str (Strategy.ofCount total.rankings).name),
          ("legacy_slots", .ofNat total.layerReads), ("coverage_slots", .ofNat total.rankings)]
      else []))
  return result

/-- The strategy to report once one more slot was looked at. -/
def strategyAfter (strategy? : Option Strategy) (next : Strategy) : Option Strategy :=
  match strategy?, next with
  | some .ranked, _
  | _, .ranked => some .ranked
  | _, _       => some .layerRead

/-- The strategy to report for several slots together, one after the other, if any was looked at. -/
def commonStrategy (strategies : List Strategy) : Option Strategy :=
  strategies.foldl strategyAfter none

/-- The set of a step to a body slot. -/
def alongSlot (a : Asking) (slot : BodySlot) (parent : CandidateSet) : Resolving CandidateSet := do
  let (result, strategies) ← Resolving.gather (a.viewSlot slot) parent
  a.note (.summary .slot "slot resolved" parent.size result.size
    (("field", .str slot.name) ::
      match commonStrategy (strategies.filterMap id) with
      | some strategy => [("strategy", .str strategy.name)]
      | none          => []))
  return result

/-- The set of a filter. -/
def filtered (a : Asking) (predicate : Json) (parent : CandidateSet) : Resolving CandidateSet := do
  let (result, failed) ← Resolving.gather (a.keep predicate Resolver.filter.name) parent
  a.note (.summary .filter "filter applied" parent.size result.size
    [("failures", .ofNat (failed.countP id))])
  return result

/-- The set of a union. -/
def united (a : Asking) (left right : CandidateSet) : Resolving CandidateSet := do
  let result := left.union right
  a.note (.summary .union "union resolved" (left.size + right.size) result.size
    [("left_size", .ofNat left.size), ("right_size", .ofNat right.size)])
  return result

/-- The set of a flattening. -/
def flattened (a : Asking) (parent : CandidateSet) : Resolving CandidateSet := do
  let (result, _) ← Resolving.gather a.flatten parent
  a.note (.summary .arrayIteration "array flattened" parent.size result.size [])
  return result

end Asking

/-- What a resolver makes of a node whose branches are still to be resolved.  It resolves the branches
first, the left one before the right one; a node of another kind it leaves alone. -/
def Resolver.resolve (r : Resolver) (a : Asking) (n : Query.Node (Resolving CandidateSet)) :
    Resolving CandidateSet :=
  match r, n with
  | .source,         .root root                 => a.fromRoot root
  | .step,           .step field isArray parent => do a.alongField field isArray (← parent)
  | .filter,         .filter predicate parent   => do a.filtered predicate (← parent)
  | .union,          .union left right          => do
      let left ← left
      a.united left (← right)
  | .arrayIteration, .flatten parent            => do a.flattened (← parent)
  | .clothing,       .step field isArray parent =>
      match View.ofField? field with
      | some view => do a.alongView view isArray (← parent)
      | none      => throw (.noResolver .step)
  | .slot,           .step field _ parent       =>
      match BodySlot.ofName? field with
      | some bodySlot => do a.alongSlot bodySlot (← parent)
      | none          => throw (.noResolver .step)
  | _,               n                          => throw (.noResolver n.kind)

namespace Context

/-- Resolves a node at a depth: by the resolver it goes to, within the bounds. -/
def dispatch (c : Context) (depth : Nat) (n : Query.Node (Resolving CandidateSet)) :
    Resolving CandidateSet := do
  if c.settings.maxDepth ≤ depth then throw (.depthExceeded c.settings.maxDepth)
  match c.router.resolverFor? n with
  | none   => throw (.noResolver n.kind)
  | some r =>
      Resolving.remark
        [{ severity := .trace
           message := "dispatching"
           fields := [("resolver", .str r.name), ("kind", .str n.kind.name), ("depth", .ofNat depth)] }]
      let result ← r.resolve c.toAsking n
      if c.settings.maxCandidates < result.size then
        throw (.tooManyCandidates result.size c.settings.maxCandidates)
      return result

/-- Resolves a query whose topmost node is at a depth. -/
def resolve (c : Context) : Query → (depth : Nat) → Resolving CandidateSet
  | .root root,                 d => c.dispatch d (.root root)
  | .step field isArray parent, d => c.dispatch d (.step field isArray (c.resolve parent (d + 1)))
  | .filter predicate parent,   d => c.dispatch d (.filter predicate (c.resolve parent (d + 1)))
  | .union left right,          d =>
      c.dispatch d (.union (c.resolve left (d + 1)) (c.resolve right (d + 1)))
  | .flatten parent,            d => c.dispatch d (.flatten (c.resolve parent (d + 1)))

/-- A query is resolved by dispatching its topmost node, its branches to be resolved one deeper. -/
theorem resolve_eq (c : Context) (q : Query) (d : Nat) :
    c.resolve q d = c.dispatch d (q.node.map fun p => c.resolve p (d + 1)) := by
  cases q <;> rfl

/-- Resolves the topmost node of a query by a resolver of choice, without a dispatch. -/
def resolveBy (c : Context) (r : Resolver) (q : Query) (depth : Nat) : Resolving CandidateSet :=
  r.resolve c.toAsking (q.node.map fun p => c.resolve p (depth + 1))

end Context

end EntityQuery
