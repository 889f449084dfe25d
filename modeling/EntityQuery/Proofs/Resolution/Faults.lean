import EntityQuery.Proofs.Engine.Account
import EntityQuery.Proofs.Predicate.Extension
import EntityQuery.Proofs.Resolution.Comparison
import EntityQuery.Proofs.Resolution.Treatment

/-!
# Faults of the world

A reading that fails is never taken for something else.  So the resolution of a query over a world that
answers more tells the same, unless it ends in a fault of the world it was made over:

* `Comparison.faulty`: the comparison that says so, of parts of runs.
* `Asking.alike_inWorld`, `Context.between_inWorld`: it holds between all that is asked of the one world
  and of the other.
* `Engine.faults_surface`: so the report of an engine is the same, or a fault that the world has.
-/

namespace EntityQuery

/-- The error is a fault of some world. -/
def QueryError.IsUnread : QueryError → Prop
  | unread _ => True
  | _        => False

/-- The error is a fault of `w`. -/
def QueryError.IsFaultOf (w : World) : QueryError → Prop
  | unread fault => w.Fails fault
  | _            => False

theorem QueryError.not_isUnread_of_isStructural {e : QueryError} (h : e.isStructural) :
    ¬ e.IsUnread := by
  cases e with
  | unread fault => cases h
  | _            => exact id

/-- Parts that tell the same, unless the first of them ends in a fault of `w`. -/
def Comparison.faulty (w : World) : Comparison :=
  .agreeing (QueryError.IsFaultOf w) (fun e => ¬ e.IsUnread)
    fun _ => QueryError.not_isUnread_of_isStructural

namespace Asking

/-- What holds throughout, but over another world. -/
def inWorld (a : Asking) (w : World) : Asking :=
  { a with scene := { a.scene with world := w } }

variable (a : Asking) {w : World}

theorem read_faulty {α : Type} {x y : Except ReadFault α} (h : a.scene.world.SameReading x y) :
    (Comparison.faulty a.scene.world).Holds (Resolving.read x) (Resolving.read y) :=
  Comparison.agreeing_of_tells (Resolving.read_tells x) (Resolving.read_tells y)
    (h.mapError (fun _ => id) fun _ => False.elim)

variable (h : w.Extends a.scene.world)
include h

theorem outfitOf_faulty (entity : EntityId) :
    (Comparison.faulty a.scene.world).Holds (a.outfitOf entity) ((a.inWorld w).outfitOf entity) := by
  -- The remarks may differ, but they are no entries.
  have houtfit : ∀ a' : Asking, (a'.outfitOf entity).Tells
      ((a'.scene.world.outfit entity).mapError .unread) [] :=
    fun a' => (Resolving.remark_tells _).bind_ok (Resolving.read_tells _)
  exact Comparison.agreeing_of_tells (houtfit a) (houtfit (a.inWorld w))
    ((h.outfit entity).mapError (fun _ => id) fun _ => False.elim)

theorem keep_faulty (predicate : Json) (maker : String) (c : Candidate) :
    (Comparison.faulty a.scene.world).Holds (a.keep predicate maker c)
      ((a.inWorld w).keep predicate maker c) := by
  by_cases hc : ∃ d, c = .descriptor d
  · obtain ⟨d, rfl⟩ := hc
    exact Comparison.agreeing_of_tells (a.keep_tells_of_descriptor d)
      ((a.inWorld w).keep_tells_of_descriptor d) (.error id)
  have hc : ∀ d, c ≠ .descriptor d := fun d hd => hc ⟨d, hd⟩
  have htest := Predicate.Bindings.evaluate_same
    (b := { scene := a.scene, actor := a.actor, subject := some c }) h predicate
  rcases htest with ⟨e, he, hfault⟩ | ⟨hcommon, hsame⟩
  · cases e with
    | unread fault => exact ⟨_, _, a.keep_tells_of_unread hc he, .inl ⟨_, rfl, hfault⟩⟩
    | _            => exact hfault.elim
  · -- What the predicate finds decides the rest.
    have hsame : (a.inWorld w).test predicate c = a.test predicate c := hsame
    cases hfound : a.test predicate c with
    | ok v =>
        exact Comparison.agreeing_of_tells (a.keep_tells_of_ok hc hfound)
          ((a.inWorld w).keep_tells_of_ok hc (hsame.trans hfound)) (.ok _)
    | error e =>
        have he : ∀ fault, e ≠ .unread fault := by
          rintro fault rfl
          exact hcommon _ hfound trivial
        cases hstrict : a.settings.strictFilters with
        | true  =>
            exact Comparison.agreeing_of_tells (a.keep_tells_of_strict hc hstrict hfound he)
              ((a.inWorld w).keep_tells_of_strict hc hstrict (hsame.trans hfound) he) (.error id)
        | false =>
            exact Comparison.agreeing_of_tells (a.keep_tells_of_lenient hc hstrict hfound he)
              ((a.inWorld w).keep_tells_of_lenient hc hstrict (hsame.trans hfound) he) (.ok _)

theorem alike_inWorld : (Comparison.faulty a.scene.world).Alike a (a.inWorld w) where
  actor := rfl
  location := rfl
  tieBreak := rfl
  component id field := a.read_faulty (h.component?_same id field)
  holders component := a.read_faulty (h.holders_same component)
  outfit := a.outfitOf_faulty h
  keep predicate := a.keep_faulty h predicate Resolver.filter.name
  note entry _ := Comparison.agreeing_self (a.note_comesTo entry) nofun

end Asking

namespace Context

/-- What holds throughout a resolution, but over another world. -/
def inWorld (c : Context) (w : World) : Context :=
  { c with toAsking := c.toAsking.inWorld w }

theorem between_inWorld (c : Context) {w : World} (h : w.Extends c.scene.world) :
    (Comparison.faulty c.scene.world).Between c (c.inWorld w) where
  toAlike := c.alike_inWorld h
  router := rfl
  depth := (Comparison.faulty c.scene.world).boundDepth c
  size := (Comparison.faulty c.scene.world).boundSize c

end Context

/-- **No fault of the world is swallowed.**  Over a world that gives all the answers of the scene's world,
and maybe more, the report on a query is the same, unless the query ends in a fault; and a fault that a
query ends in is one with which the scene's world fails at some reading.  It is so whatever the router,
the settings and the score table are. -/
theorem Engine.faults_surface (e : Engine) (q : Query) (actor : EntityId) (scene : Scene)
    (traced : Bool) (w : World) (h : w.Extends scene.world) :
    let report := (e.ask q actor scene traced).1
    let report' := (e.ask q actor { scene with world := w } traced).1
    ((∀ fault, report.outcome ≠ .error (.unread fault)) → report'.account = report.account) ∧
    ∀ fault, report.outcome = .error (.unread fault) → scene.world.Fails fault := by
  intro report report'
  let c := e.context actor scene traced
  obtain ⟨r, t, hr, hresolved⟩ := (c.between_inWorld h).resolve q 0
  have haccount : report.account = { outcome := r.bind Answer.ofSet, trace := t } := e.ask_account hr
  have houtcome : report.outcome = r.bind Answer.ofSet := congrArg Account.outcome haccount
  rcases hresolved with ⟨err, rfl, hfault⟩ | ⟨hcommon, hr'⟩
  · -- The query ends in a fault of the world.
    cases err with
    | unread fault =>
        refine ⟨fun hne => (hne fault houtcome).elim, fun fault' hfault' => ?_⟩
        cases houtcome.symm.trans hfault'
        exact hfault
    | _ => exact hfault.elim
  · refine ⟨fun _ => (e.ask_account hr').trans haccount.symm, fun fault hfault => ?_⟩
    rw [houtcome] at hfault
    rcases Attempt.bind_eq_error.1 hfault with hr | ⟨s, -, hs⟩
    · exact (hcommon _ hr trivial).elim
    · cases Answer.isStructural_of_ofSet_eq_error hs

/-- Where titles cannot be read, the answer about the friend is that of the store, and the union with the
title ends in the fault. -/
theorem Engine.unreadable_title_surfaces :
    let store := ((∅ : Store).insert "hero" "friend" (.str "squire")).insert "hero" "title" (.str "king")
    let plan : FaultPlan := { reads := [{ component := some "title", reason := "locked" }] }
    let e := Engine.new {} .standard
    let report := fun q world => (e.ask q "hero" { world } true).1
    let friend : Query := .step "friend" false (.root .actor)
    let either : Query := .union friend (.step "title" false (.root .actor))
    let fault : ReadFault := .unreadable "hero" "title" "locked"
    store.world.Extends (plan.applyTo store.world) ∧
    (report friend (plan.applyTo store.world)).outcome = .ok ⟨[.entity "squire"]⟩ ∧
    (report friend store.world).account = (report friend (plan.applyTo store.world)).account ∧
    (report either (plan.applyTo store.world)).outcome = .error (.unread fault) ∧
    (plan.applyTo store.world).Fails fault := by
  intro store plan e report friend either fault
  have hextends := plan.extends_applyTo store
  have hfriend : (report friend (plan.applyTo store.world)).outcome = .ok ⟨[.entity "squire"]⟩ := rfl
  have heither : (report either (plan.applyTo store.world)).outcome = .error (.unread fault) := rfl
  obtain ⟨hsame, -⟩ := e.faults_surface friend "hero" { world := plan.applyTo store.world } true
    store.world hextends
  obtain ⟨-, hfails⟩ := e.faults_surface either "hero" { world := plan.applyTo store.world } true
    store.world hextends
  refine ⟨hextends, hfriend, hsame fun fault' h => ?_, heither, hfails fault heither⟩
  cases hfriend.symm.trans h

end EntityQuery
