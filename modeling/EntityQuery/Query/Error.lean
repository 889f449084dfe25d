import EntityQuery.Attire.View
import EntityQuery.Number.Text
import EntityQuery.Predicate.Error
import EntityQuery.Query.Basic

/-!
# Why a query has no answer

Some errors are about the shape of the query, whatever the world holds; the others come from a predicate
or from the world.  Data that is missing is no error.
-/

namespace EntityQuery

inductive QueryError where
  /-- No resolver accepts a node of the kind. -/
  | noResolver (kind : Query.Kind)
  /-- A descriptor arrived where something else than a step to a body slot follows. -/
  | unresolvedDescriptor (owner : EntityId) (view : Attire.View)
  | depthExceeded (limit : Nat)
  | tooManyCandidates (count limit : Nat)
  /-- A predicate failed for a candidate, and filters are strict. -/
  | filterFailed (candidate : String) (source : PredicateError)
  | unread (fault : ReadFault)
deriving DecidableEq

namespace QueryError

def message : QueryError → String
  | noResolver kind => "no resolver registered for " ++ kind.name ++ " nodes"
  | unresolvedDescriptor owner view =>
      "'" ++ view.field ++ "' of entity " ++ owner ++ " must be followed by a body slot step"
  | depthExceeded limit => "query exceeds maximum depth of " ++ Number.natText limit
  | tooManyCandidates count limit =>
      Number.natText count ++ " candidates exceed the limit of " ++ Number.natText limit
  | filterFailed candidate source =>
      "filter evaluation failed for candidate " ++ candidate ++ ": " ++ source.message
  | unread fault => fault.message

/-- Whether the shape of the query is the cause. -/
def isStructural : QueryError → Bool
  | noResolver _             => true
  | unresolvedDescriptor _ _ => true
  | depthExceeded _          => true
  | tooManyCandidates _ _    => true
  | filterFailed _ _         => false
  | unread _                 => false

end QueryError

end EntityQuery
