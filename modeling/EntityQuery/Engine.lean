import EntityQuery.Resolution.Basic

/-!
# The engine

An engine answers queries, one after the other.  Between two of them it keeps its router, its settings
and the score table, and nothing else.
-/

namespace EntityQuery

open Attire (ScoreTable)

structure Engine where
  settings : Settings
  router : Router
  scores : ScoreTable
deriving DecidableEq

/-- How a query went. -/
structure Report where
  outcome : Except QueryError Answer
  trace : Trace
  log : Log

namespace Engine

/-- An engine with an empty score table. -/
def new (settings : Settings) (router : Router) : Engine :=
  { settings, router, scores := .ofCapacity settings.cacheCapacity }

/-- The state of a run that begins. -/
def begin (e : Engine) : Run :=
  { scores := e.scores }

def context (e : Engine) (actor : EntityId) (scene : Scene) (traced : Bool) : Context :=
  { actor, scene, settings := e.settings, traced, router := e.router }

/-- Remarks on how a query was resolved. -/
def remarkOn (actor : EntityId) (q : Query) : Except QueryError CandidateSet → Event
  | .error e    =>
      { severity := .debug
        message := "scope query failed"
        fields := [("actor", .str actor), ("kind", .str q.kind.name), ("error", .str e.message)] }
  | .ok result  =>
      { severity := .debug
        message := "scope query resolved"
        fields := [("actor", .str actor), ("kind", .str q.kind.name), ("size", .ofNat result.size)] }

/-- Asks a query for an actor. -/
def ask (e : Engine) (q : Query) (actor : EntityId) (scene : Scene) (traced : Bool) :
    Report × Engine :=
  let (result, run) := ((e.context actor scene traced).resolve q 0).run.run e.begin
  ({ outcome := result.bind Answer.ofSet
     trace := run.trace
     log := run.log ++ [remarkOn actor q result] },
   { e with scores := run.scores })

/-- Empties the score table. -/
def clearScores (e : Engine) : Engine :=
  { e with scores := e.scores.clear }

end Engine

end EntityQuery
