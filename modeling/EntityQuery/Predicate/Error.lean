import EntityQuery.World.Basic

/-!
# Why a predicate fails
-/

namespace EntityQuery

inductive PredicateError where
  | unknownOperator (operator : String)
  /-- A path whose root is bound to nothing. -/
  | unknownVariable (path : String)
  | invalidArguments (operator : String) (reason : String)
  | unknownCondition (name : String)
  /-- A condition that is referred to while it is being evaluated. -/
  | conditionCycle (name : String)
  | unread (fault : ReadFault)
deriving DecidableEq

def PredicateError.message : PredicateError → String
  | unknownOperator operator => "unknown operator '" ++ operator ++ "'"
  | unknownVariable path => "unknown variable '" ++ path ++ "'"
  | invalidArguments operator reason => "invalid arguments to '" ++ operator ++ "': " ++ reason
  | unknownCondition name => "unknown condition '" ++ name ++ "'"
  | conditionCycle name => "condition '" ++ name ++ "' refers to itself"
  | unread fault => fault.message

end EntityQuery
