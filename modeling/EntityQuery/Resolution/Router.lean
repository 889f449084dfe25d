import EntityQuery.Attire.BodySlot
import EntityQuery.Attire.View
import EntityQuery.Query.Basic

/-!
# Routing

Each node of a query is the business of one resolver.  Two of them are specialised: they accept only
steps along reserved fields, those that name a view and those that name a body slot.  The others accept a
kind of nodes, but for the steps along a view's field, which no generic resolver takes.

A router keeps its resolvers in the order of their registration, the specialised ones before all others,
and a node goes to the first that accepts it.
-/

namespace EntityQuery

open Attire (BodySlot View)

inductive Resolver where
  | source
  | step
  | filter
  | union
  | arrayIteration
  | clothing
  | slot
deriving DecidableEq, Repr

namespace Resolver

def all : List Resolver :=
  [source, step, filter, union, arrayIteration, clothing, slot]

def name : Resolver → String
  | source         => "SourceResolver"
  | step           => "StepResolver"
  | filter         => "FilterResolver"
  | union          => "UnionResolver"
  | arrayIteration => "ArrayIterationResolver"
  | clothing       => "ClothingStepResolver"
  | slot           => "SlotAccessResolver"

def ofName? (name : String) : Option Resolver :=
  all.find? (·.name = name)

/-- Whether a resolver accepts only part of a kind, and is tried before the others. -/
def isSpecialized : Resolver → Bool
  | clothing => true
  | slot     => true
  | _        => false

/-- Whether a node is the business of a resolver. -/
def accepts {β : Type} (r : Resolver) (n : Query.Node β) : Bool :=
  match r with
  | source         => n.kind = .source
  | step           => n.field?.any fun field => (View.ofField? field).isNone
  | filter         => n.kind = .filter
  | union          => n.kind = .union
  | arrayIteration => n.kind = .arrayIteration
  | clothing       => n.field?.any fun field => (View.ofField? field).isSome
  | slot           => n.field?.any fun field => (BodySlot.ofName? field).isSome

end Resolver

structure Router where
  /-- The resolvers in the order in which they are tried. -/
  resolvers : List Resolver := []
deriving DecidableEq

namespace Router

/-- Adds a resolver: last, or as the last of the specialised ones. -/
def register (router : Router) (r : Resolver) : Router :=
  if r.isSpecialized then
    ⟨router.resolvers.takeWhile Resolver.isSpecialized ++
      r :: router.resolvers.dropWhile Resolver.isSpecialized⟩
  else ⟨router.resolvers ++ [r]⟩

/-- The router with these resolvers, registered in order. -/
def ofList (rs : List Resolver) : Router :=
  rs.foldl register {}

/-- The router with all resolvers. -/
def standard : Router :=
  ofList Resolver.all

def size (router : Router) : Nat :=
  router.resolvers.length

def isEmpty (router : Router) : Bool :=
  router.resolvers.isEmpty

/-- The resolver that a node goes to. -/
def resolverFor? {β : Type} (router : Router) (n : Query.Node β) : Option Resolver :=
  router.resolvers.find? (·.accepts n)

end Router

end EntityQuery
