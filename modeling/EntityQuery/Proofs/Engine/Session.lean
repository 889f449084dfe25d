import EntityQuery.Proofs.Engine.Account
import EntityQuery.Proofs.Resolution.Comparison

/-!
# Sessions

In a session one engine is asked query after query, its score table is emptied now and then, and the
world changes between the queries.  What the engine carries from one query to the next are its scores,
and they have no part in what it reports:

* `Engine.account_withCapacity`: two engines of one router, whose settings differ in the capacity of the
  score table at most, report the same, whatever they remember.
* `Session.accounts_eq_fresh`: so every query of a session is reported on as by a fresh engine over the
  world of that moment, whatever capacity that engine has.
-/

namespace EntityQuery

/-! ### The capacity of the score table -/

/-- The settings, but for the capacity of the score table. -/
def Settings.withCapacity (s : Settings) (capacity : Nat) : Settings :=
  { s with cacheCapacity := capacity }

/-- What holds throughout a resolution, but for the capacity of the score table. -/
def Context.withCapacity (c : Context) (capacity : Nat) : Context :=
  { c with settings := c.settings.withCapacity capacity }

/-- No part of a resolution asks for the capacity. -/
theorem Context.between_withCapacity (c : Context) (capacity : Nat) :
    Comparison.telling.Between c (c.withCapacity capacity) where
  toAlike := Comparison.agreeing_alike c.toAsking rfl rfl
  router := rfl
  depth := Comparison.telling.boundDepth c
  size := Comparison.telling.boundSize c

/-! ### Sessions -/

/-- What is asked of an engine, all but the world it is about. -/
structure Inquiry where
  query : Query
  actor : EntityId
  location : Option EntityId := none
  vars : Table Json := ∅
  conditions : Table Json := ∅
  traced : Bool := false

/-- The scene of an inquiry in a world. -/
def Inquiry.scene (i : Inquiry) (world : World) : Scene :=
  { world, location := i.location, vars := i.vars, conditions := i.conditions }

namespace Engine

/-- How an engine answers an inquiry. -/
def answer (e : Engine) (i : Inquiry) (world : World) : Report × Engine :=
  e.ask i.query i.actor (i.scene world) i.traced

/-- What engines report does not depend on what they remember, nor on how much they can. -/
theorem account_withCapacity (e : Engine) (capacity : Nat) (i : Inquiry) (world : World) :
    (e.answer i world).1.account =
      ((new (e.settings.withCapacity capacity) e.router).answer i world).1.account := by
  obtain ⟨r, t, he, hnew⟩ := Comparison.tells_of_telling
    (((e.context i.actor (i.scene world) i.traced).between_withCapacity capacity).resolve i.query 0)
  exact (e.ask_account he).trans
    ((new (e.settings.withCapacity capacity) e.router).ask_account hnew).symm

end Engine

/-- What may happen in a session. -/
inductive Action where
  | ask (inquiry : Inquiry)
  | clearScores
  | change (world : World)

structure Session where
  engine : Engine
  world : World

namespace Session

/-- The session after an action. -/
def step (s : Session) : Action → Session
  | .ask i        => { s with engine := (s.engine.answer i s.world).2 }
  | .clearScores  => { s with engine := s.engine.clearScores }
  | .change world => { s with world }

/-- What an action has reported. -/
def account? (s : Session) : Action → Option Account
  | .ask i => some (s.engine.answer i s.world).1.account
  | _      => none

/-- What is reported in the course of a session. -/
def accounts (s : Session) : List Action → List Account
  | []      => []
  | a :: as => (s.account? a).toList ++ (s.step a).accounts as

end Session

/-- What is reported if each inquiry goes to a new engine. -/
def freshAccounts (settings : Settings) (router : Router) : World → List Action → List Account
  | _,     []                  => []
  | world, .ask i :: as        =>
      ((Engine.new settings router).answer i world).1.account :: freshAccounts settings router world as
  | world, .clearScores :: as  => freshAccounts settings router world as
  | _,     .change world :: as => freshAccounts settings router world as

namespace Session

/-- No action changes the settings or the router. -/
theorem step_engine (s : Session) (a : Action) :
    (s.step a).engine.settings = s.engine.settings ∧ (s.step a).engine.router = s.engine.router := by
  cases a <;> exact ⟨rfl, rfl⟩

/-- **History has no part in what an engine reports.**  In every session, of queries that succeed or fail,
of the score table being emptied and of changes of the world, each query has the outcome and the trace
that a fresh engine gives over the world of that moment; and it is the same for every capacity of the
score table. -/
theorem accounts_eq_fresh (s : Session) (actions : List Action) (capacity : Nat) :
    s.accounts actions =
      freshAccounts (s.engine.settings.withCapacity capacity) s.engine.router s.world actions := by
  induction actions generalizing s with
  | nil => rfl
  | cons a actions ih =>
      obtain ⟨hsettings, hrouter⟩ := s.step_engine a
      rw [accounts, ih, hsettings, hrouter]
      cases a with
      | ask i =>
          exact congrArg (· :: _) (s.engine.account_withCapacity capacity i s.world)
      | clearScores | change _ => rfl

end Session

end EntityQuery
