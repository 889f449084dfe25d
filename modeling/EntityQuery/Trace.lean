import EntityQuery.Json.Record

/-!
# Traces

A trace tells how a query was resolved: an entry for each node, and one for each predicate that failed on
the way, in the order of the resolution.
-/

namespace EntityQuery

namespace Trace

inductive Level where
  | debug
  | info
  | warn
deriving DecidableEq, Repr

namespace Level

def all : List Level :=
  [debug, info, warn]

def name : Level → String
  | debug => "debug"
  | info  => "info"
  | warn  => "warn"

def ofName? (name : String) : Option Level :=
  all.find? (·.name = name)

end Level

structure Entry where
  level : Level
  message : String
  /-- The name of the resolver that made the entry. -/
  resolver : String
  fields : Table Json
deriving DecidableEq

namespace Entry

def fieldNames : List String :=
  ["level", "message", "resolver", "fields"]

def toJson (e : Entry) : Json :=
  .object [
    ("level", .str e.level.name),
    ("message", .str e.message),
    ("resolver", .str e.resolver),
    ("fields", .ofTable e.fields)]

def ofJson? (v : Json) : Option Entry :=
  match v.record? fieldNames with
  | some [level, .str message, .str resolver, .obj fields] => do
      let level ← Level.ofName? (← level.word?)
      return { level, message, resolver, fields := .ofList fields }
  | _ => none

end Entry

end Trace

/-- Entries, the first one first. -/
abbrev Trace := List Trace.Entry

namespace Trace

/-- The entries that a resolver made. -/
def madeBy (t : Trace) (resolver : String) : Trace :=
  t.filter (·.resolver = resolver)

end Trace

end EntityQuery
