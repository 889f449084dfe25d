import EntityQuery.Candidate.Set
import EntityQuery.Json.Record
import EntityQuery.Query.Error

/-!
# Answers

The answer to a query lists entities and plain values.  A set of candidates is an answer unless it holds
a descriptor.
-/

namespace EntityQuery

namespace Answer

inductive Member where
  | entity (id : EntityId)
  | value (value : Json)
deriving DecidableEq

namespace Member

def toJson : Member → Json
  | entity id => .object [("kind", .str "entity"), ("value", .str id)]
  | value v   => .object [("kind", .str "value"), ("value", v)]

/-- The member of a kind with this content. -/
def ofKind? (kind : String) (content : Json) : Option Member :=
  match kind, content with
  | "entity", .str id => some (entity id)
  | "value",  content => some (value content)
  | _,        _       => none

/-- The member that a value writes.  In the array form the kind is a string; under its name it may be
any form of a word. -/
def ofJson? : Json → Option Member
  | .arr [.str kind, content] => ofKind? kind content
  | .obj ms                   => do
      ofKind? (← (← Entries.get? "kind" ms).word?) (← Entries.get? "value" ms)
  | _                         => none

/-- The member that a candidate is. -/
def ofCandidate : Candidate → Except QueryError Member
  | .entity id    => .ok (entity id)
  | .value v      => .ok (value v)
  | .descriptor d => .error (.unresolvedDescriptor d.owner d.view)

end Member

end Answer

structure Answer where
  members : List Answer.Member
deriving DecidableEq

namespace Answer

def size (a : Answer) : Nat :=
  a.members.length

def isEmpty (a : Answer) : Bool :=
  a.members.isEmpty

/-- The entities of the answer. -/
def entities (a : Answer) : List EntityId :=
  a.members.filterMap fun
    | .entity id => some id
    | .value _   => none

def containsEntity (a : Answer) (id : EntityId) : Bool :=
  id ∈ a.entities

/-- The answer that a set is; the first descriptor in it is the error. -/
def ofSet (s : CandidateSet) : Except QueryError Answer :=
  (s.toList.mapM Member.ofCandidate).map Answer.mk

def toJson (a : Answer) : Json :=
  .object [("values", .arr (a.members.map Member.toJson))]

def ofJson? (v : Json) : Option Answer :=
  match v.record? ["values"] with
  | some [.arr vs] => (vs.mapM Member.ofJson?).map Answer.mk
  | _              => none

end Answer

end EntityQuery
