import EntityQuery.Json.Basic

/-!
# The log

What the library remarks on while it works: each event has a severity, a fixed message and named
fields, counts as numbers and all else as text.  The events of a run are in the order in which they
arose; which of them are of interest is decided afterwards, by severity.
-/

namespace EntityQuery

/-- How grave an event is, the gravest last. -/
inductive Severity where
  | trace
  | debug
  | info
  | warn
  | error
deriving DecidableEq

namespace Severity

def rank : Severity → Nat
  | trace => 0
  | debug => 1
  | info  => 2
  | warn  => 3
  | error => 4

def all : List Severity :=
  [trace, debug, info, warn, error]

def name : Severity → String
  | trace => "trace"
  | debug => "debug"
  | info  => "info"
  | warn  => "warn"
  | error => "error"

def ofName? (name : String) : Option Severity :=
  all.find? (·.name = name)

end Severity

structure Event where
  severity : Severity
  message : String
  fields : List (String × Json)
deriving DecidableEq

/-- Events, the first one first. -/
abbrev Log := List Event

/-- The events at least as grave as `least`. -/
def Log.from (log : Log) (least : Severity) : Log :=
  log.filter fun e => least.rank ≤ e.severity.rank

end EntityQuery
