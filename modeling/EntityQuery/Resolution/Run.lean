import EntityQuery.Attire.Visibility
import EntityQuery.Query.Error
import EntityQuery.Trace

/-!
# Runs

A query is resolved in a run.  What a run changes is the score table, the log and the trace, and it does
so also when it ends in an error: what was learnt and noted on the way there stays.
-/

namespace EntityQuery

open Attire (Ledger Look)

structure Run extends Ledger where
  trace : Trace := []

/-- A part of a run, with a result or an error. -/
abbrev Resolving := ExceptT QueryError (StateM Run)

namespace Resolving

/-- A look at an outfit, as part of a run. -/
def look {α : Type} (x : Look α) : Resolving α :=
  fun run =>
    let (a, ledger) := StateT.run x run.toLedger
    (.ok a, { run with toLedger := ledger })

/-- What was read from the world; a fault is an error of the run. -/
def read {α : Type} (reading : Except ReadFault α) : Resolving α :=
  match reading with
  | .ok a        => pure a
  | .error fault => throw (.unread fault)

/-- Adds events to the log. -/
def remark (events : Log) : Resolving Unit :=
  modify fun run => { run with log := run.log ++ events }

/-- Adds an entry to the trace. -/
def note (entry : Trace.Entry) : Resolving Unit :=
  modify fun run => { run with trace := run.trace ++ [entry] }

end Resolving

end EntityQuery
