import EntityQuery.Attire.Outfit
import EntityQuery.Attire.View
import EntityQuery.Json.Printer
import EntityQuery.World.Basic

/-!
# Candidates

What a query finds on its way: entities, plain values, and descriptors.  A descriptor is somebody's
outfit seen through a view; it waits for a step to a slot and is no answer by itself.

Two candidates are the same when their keys are equal.  The key of a descriptor leaves the outfit out:
within a query the owner and the view determine it.
-/

namespace EntityQuery

open Attire (Outfit View)

/-- An outfit to be looked at through a view, once a slot is named. -/
structure Descriptor where
  owner : EntityId
  view : View
  outfit : Outfit
deriving DecidableEq

inductive Candidate where
  | entity (id : EntityId)
  | value (value : Json)
  | descriptor (descriptor : Descriptor)
deriving DecidableEq

namespace Candidate

/-- What tells candidates apart. -/
inductive Key where
  | entity (id : EntityId)
  | value (value : Json)
  | descriptor (owner : EntityId) (view : View)
deriving DecidableEq

def key : Candidate → Key
  | entity id    => .entity id
  | value v      => .value v
  | descriptor d => .descriptor d.owner d.view

/-- Equality of candidates: of one kind and equal, values by what they say. -/
def same : Candidate → Candidate → Bool
  | entity a,     entity b     => a = b
  | value v,      value w      => v.same w
  | descriptor a, descriptor b => a.owner = b.owner ∧ a.view = b.view
  | _,            _            => false

/-- The candidate that the value of a field is: a text names an entity. -/
def ofFieldValue : Json → Candidate
  | .str id => entity id
  | v       => value v

def entity? : Candidate → Option EntityId
  | entity id => some id
  | _         => none

/-- The candidate as text. -/
def text : Candidate → String
  | entity id    => id
  | value v      => v.text
  | descriptor d => d.owner ++ "." ++ d.view.field

/-- The candidates in the value of a field: those of its elements, if it is a list, and otherwise its
own; `null` stands for none. -/
def ofField : Json → List Candidate
  | .arr vs => (vs.filter (¬ ·.isNull)).map ofFieldValue
  | .null   => []
  | v       => [ofFieldValue v]

end Candidate

end EntityQuery
