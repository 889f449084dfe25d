import EntityQuery.Json.Basic

/-!
# Queries

A query starts at a root and goes on from there: a step along a field, a filter, the union with another
query, or the flattening of lists.

`Query.Node` is one node of a query with something in place of each of its branches.  What a node means
is told from what its branches mean, and some things depend on the node alone, whatever its branches.
-/

namespace EntityQuery

/-- Where a query starts. -/
inductive Root where
  /-- The entity that asks. -/
  | actor
  /-- The place the query is asked at, if there is one. -/
  | location
  /-- All entities with a component. -/
  | entities (component : String)
  /-- Nothing. -/
  | none
deriving DecidableEq

inductive Query where
  | root (root : Root)
  | step (field : String) (isArray : Bool) (parent : Query)
  | filter (predicate : Json) (parent : Query)
  | union (left right : Query)
  | flatten (parent : Query)
deriving DecidableEq

namespace Query

/-- The kinds of nodes. -/
inductive Kind where
  | source
  | step
  | filter
  | union
  | arrayIteration
deriving DecidableEq, Repr

namespace Kind

def all : List Kind :=
  [source, step, filter, union, arrayIteration]

def name : Kind → String
  | source         => "Source"
  | step           => "Step"
  | filter         => "Filter"
  | union          => "Union"
  | arrayIteration => "ArrayIteration"

def ofName? (name : String) : Option Kind :=
  all.find? (·.name = name)

@[simp] theorem ofName?_name (kind : Kind) : ofName? kind.name = some kind := by
  cases kind <;> decide

end Kind

/-- One node of a query, its branches of type `β`. -/
inductive Node (β : Type) where
  | root (root : Root)
  | step (field : String) (isArray : Bool) (parent : β)
  | filter (predicate : Json) (parent : β)
  | union (left right : β)
  | flatten (parent : β)

namespace Node

variable {β : Type}

def kind : Node β → Kind
  | root _     => .source
  | step _ _ _ => .step
  | filter _ _ => .filter
  | union _ _  => .union
  | flatten _  => .arrayIteration

/-- The field that a step follows. -/
def field? : Node β → Option String
  | step field _ _ => some field
  | _              => none

/-- The branch that a node goes on from. -/
def parent? : Node β → Option β
  | step _ _ parent => some parent
  | filter _ parent => some parent
  | flatten parent  => some parent
  | root _          => none
  | union _ _       => none

/-- The node with `f` of each branch. -/
def map {γ : Type} (f : β → γ) : Node β → Node γ
  | root r       => root r
  | step s a p   => step s a (f p)
  | filter l p   => filter l (f p)
  | union l r    => union (f l) (f r)
  | flatten p    => flatten (f p)

end Node

/-- The topmost node of a query. -/
def node : Query → Node Query
  | root r     => .root r
  | step s a p => .step s a p
  | filter l p => .filter l p
  | union l r  => .union l r
  | flatten p  => .flatten p

def kind (q : Query) : Kind :=
  q.node.kind

def field? (q : Query) : Option String :=
  q.node.field?

def parent? (q : Query) : Option Query :=
  q.node.parent?

/-- How many nodes lie on the longest way from the top of a query to a root. -/
def depth : Query → Nat
  | root _     => 1
  | step _ _ p => 1 + p.depth
  | filter _ p => 1 + p.depth
  | union l r  => 1 + max l.depth r.depth
  | flatten p  => 1 + p.depth

end Query

end EntityQuery
