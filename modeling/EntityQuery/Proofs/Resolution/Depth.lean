import EntityQuery.Proofs.Resolution.Bounds
import EntityQuery.World.Fault

/-!
# How deep queries are

The depth of a query counts the nodes from a root to the top; the bound is on the depth at which a node is
resolved, counted from the top to the roots.  A query fits under the bound if the two together do.

* `Context.resolve_telling`: it makes no difference at which depth a query is resolved, as long as it fits
  there, whichever resolvers the router knows.
* `Context.exceeds_of_outcome`, `Context.fits_of_outcome`: under the standard router a query that fits is
  not found too deep, and one that does not fit has no set.
* `Context.resolve_exceeding`: without unions, a query that does not fit fails at the first node that is too
  deep, before any candidate is looked at.

`Engine.depth_bound_is_exact` puts these together for whole queries.
-/

namespace EntityQuery

open Attire (ScoreTable View)

/-- Whether a query unites others. -/
def Query.hasUnion : Query → Bool
  | .root _     => false
  | .step _ _ p => p.hasUnion
  | .filter _ p => p.hasUnion
  | .union _ _  => true
  | .flatten p  => p.hasUnion

/-! ### Resolutions at different depths -/

/-- What is remarked is not told. -/
theorem Comparison.remark_telling (events events' : Log) :
    telling.Holds (Resolving.remark events) (Resolving.remark events') :=
  telling_of_tells (Resolving.remark_tells events) (Resolving.remark_tells events')

namespace Context

variable (c : Context) {d d' : Nat}

theorem boundDepth_of_lt (hd : d < c.settings.maxDepth) : c.boundDepth d = pure () :=
  if_neg (Nat.not_le.2 hd)

/-- Within the bound a dispatch tells nothing of the depth, which is remarked only. -/
theorem dispatch_telling (hd : d < c.settings.maxDepth) (hd' : d' < c.settings.maxDepth)
    {m n : Query.Node (Resolving CandidateSet)} (hmn : m.Related Comparison.telling.Holds n) :
    Comparison.telling.Holds (c.dispatch d m) (c.dispatch d' n) := by
  rw [dispatch_eq, dispatch_eq, c.boundDepth_of_lt hd, c.boundDepth_of_lt hd']
  refine Comparison.telling.bind (Comparison.telling.pure ()) fun _ => ?_
  unfold route
  rw [hmn.resolverFor?_eq, hmn.kind_eq]
  cases c.router.resolverFor? m with
  | none   => exact Comparison.telling.refusal rfl
  | some r =>
      have halike : Comparison.telling.Alike c.toAsking c.toAsking :=
        Comparison.agreeing_alike c.toAsking rfl rfl
      refine Comparison.telling.bind (Comparison.remark_telling _ _) fun _ => ?_
      exact Comparison.telling.bind (halike.resolveNode r hmn) (Comparison.telling.boundSize c)

/-- **At all depths where a query fits, its resolution tells the same.** -/
theorem resolve_telling {q : Query} (h : d + q.depth ≤ c.settings.maxDepth)
    (h' : d' + q.depth ≤ c.settings.maxDepth) :
    Comparison.telling.Holds (c.resolve q d) (c.resolve q d') := by
  induction q generalizing d d' with
  | root root =>
      rw [Query.depth] at h h'
      exact c.dispatch_telling h h' (.root root)
  | step field isArray p ih =>
      rw [Query.depth] at h h'
      exact c.dispatch_telling (by omega) (by omega) (.step field isArray (ih (by omega) (by omega)))
  | filter predicate p ih =>
      rw [Query.depth] at h h'
      exact c.dispatch_telling (by omega) (by omega) (.filter predicate (ih (by omega) (by omega)))
  | union l r ihl ihr =>
      rw [Query.depth] at h h'
      exact c.dispatch_telling (by omega) (by omega)
        (.union (ihl (by omega) (by omega)) (ihr (by omega) (by omega)))
  | flatten p ih =>
      rw [Query.depth] at h h'
      exact c.dispatch_telling (by omega) (by omega) (.flatten (ih (by omega) (by omega)))

/-- A query comes to one result, at all depths where it fits. -/
theorem exists_comesTo_of_fits {q : Query} (h : d + q.depth ≤ c.settings.maxDepth) :
    ∃ r, ∀ d', d' + q.depth ≤ c.settings.maxDepth → (c.resolve q d').ComesTo r := by
  obtain ⟨r, t, hr, -⟩ := Comparison.tells_of_telling (c.resolve_telling h h)
  refine ⟨r, fun d' h' => ?_⟩
  obtain ⟨r', t', hr', hsame⟩ := Comparison.tells_of_telling (c.resolve_telling h h')
  let run : Run := { scores := default }
  obtain rfl : r' = r := (hr' run).1.symm.trans (hr run).1
  exact ⟨t', hsame⟩

end Context

/-! ### What does not end at a bound -/

namespace Asking

variable {a : Asking} {c : Candidate} {e : QueryError}

theorem not_isBound_of_unread {α : Type} {reading : Except ReadFault α}
    (h : reading.mapError .unread = .error e) : ¬ e.IsBound := by
  obtain ⟨fault, -, rfl⟩ := Attempt.mapError_eq_error.1 h
  simp [QueryError.IsBound]

theorem not_isBound_of_foundInField {field : String} (h : a.foundInField field c = .error e) :
    ¬ e.IsBound := by
  have h := Attempt.map_eq_error.1 h
  cases c with
  | entity id    => exact not_isBound_of_unread h
  | value v      => cases h
  | descriptor d =>
      cases h
      simp [QueryError.IsBound]

theorem not_isBound_of_foundByFilter {predicate : Json} (h : a.foundByFilter predicate c = .error e) :
    ¬ e.IsBound := by
  unfold foundByFilter at h
  split at h
  · cases h
    simp [QueryError.IsBound]
  · split at h
    · cases h
    · cases h
      simp [QueryError.IsBound]
    · split at h
      · cases h
        simp [QueryError.IsBound]
      · cases h

/-- Whatever fails at a candidate, it is no bound. -/
theorem not_isBound_of_found {t : Treatment} (h : a.found t c = .error e) : ¬ e.IsBound := by
  cases t with
  | field field       => exact not_isBound_of_foundInField h
  | filter predicate  => exact not_isBound_of_foundByFilter h
  | flatten           => cases h
  | slot slot         =>
      have h : a.foundInSlot slot c = .error e := h
      cases c with
      | entity _ | value _ => exact not_isBound_of_foundInField h
      | descriptor d       => cases h
  | view view isArray =>
      cases c with
      | entity id    => exact not_isBound_of_unread (Attempt.map_eq_error.1 h)
      | value v      => cases h
      | descriptor d =>
          cases h
          simp [QueryError.IsBound]

theorem not_isBound_of_treat {t : Treatment} {s : CandidateSet} (h : a.treat t s = .error e) :
    ¬ e.IsBound := by
  obtain ⟨c, -, hc⟩ := Attempt.exists_of_mapM_eq_error (Attempt.map_eq_error.1 h)
  exact not_isBound_of_found hc

theorem not_isBound_of_rootSet {root : Root} (h : a.rootSet root = .error e) : ¬ e.IsBound := by
  cases root with
  | entities component       => exact not_isBound_of_unread (Attempt.map_eq_error.1 h)
  | actor | location | none  => cases h

end Asking

/-! ### Queries that fit -/

namespace Context

variable {c : Context} {q : Query} {d limit : Nat}

theorem exceeds_of_within {r : Except QueryError CandidateSet}
    (h : c.within d r = .error (.depthExceeded limit)) :
    c.settings.maxDepth ≤ d ∨ r = .error (.depthExceeded limit) := by
  rcases Nat.lt_or_ge d c.settings.maxDepth with hd | hd
  · rcases Attempt.bind_eq_error.1 ((if_neg (Nat.not_le.2 hd)).symm.trans h) with h | ⟨s, -, h⟩
    · exact .inr h
    · split at h <;> cases h
  · exact .inl hd

/-- A query that is found too deep does not fit. -/
theorem exceeds_of_outcome (h : c.outcome q d = .error (.depthExceeded limit)) :
    c.settings.maxDepth < d + q.depth := by
  have hbound : QueryError.IsBound (.depthExceeded limit) := .inl ⟨limit, rfl⟩
  induction q generalizing d with
  | root root =>
      rw [Query.depth]
      rcases exceeds_of_within h with hd | h
      · omega
      · exact (Asking.not_isBound_of_rootSet h hbound).elim
  | step _ _ p ih | filter _ p ih | flatten p ih =>
      rw [Query.depth]
      rcases exceeds_of_within h with hd | h
      · omega
      · rcases Attempt.bind_eq_error.1 h with h | ⟨s, -, h⟩
        · have hp := ih h
          omega
        · exact (Asking.not_isBound_of_treat h hbound).elim
  | union l r ihl ihr =>
      rw [Query.depth]
      rcases exceeds_of_within h with hd | h
      · omega
      · rcases Attempt.bind_eq_error.1 h with h | ⟨s, -, h⟩
        · have hl := ihl h
          omega
        · rcases Attempt.bind_eq_error.1 h with h | ⟨t, -, ⟨⟩⟩
          have hr := ihr h
          omega

/-- A query that has a set fits. -/
theorem fits_of_outcome {s : CandidateSet} (h : c.outcome q d = .ok s) :
    d + q.depth ≤ c.settings.maxDepth := by
  induction q generalizing d s with
  | root root                                    => exact (c.within_eq_ok.1 h).1
  | step _ _ p ih | filter _ p ih | flatten p ih =>
      obtain ⟨-, hmade, -⟩ := c.within_eq_ok.1 h
      obtain ⟨t, ht, -⟩ := Attempt.bind_eq_ok.1 hmade
      have hp := ih ht
      rw [Query.depth]
      omega
  | union l r ihl ihr                            =>
      obtain ⟨-, ⟨x, y, hx, hy, -⟩, -⟩ := c.outcome_union_eq_ok.1 h
      have hl := ihl hx
      have hr := ihr hy
      rw [Query.depth]
      omega

/-! ### Queries that do not fit -/

/-- The standard router knows a resolver for every node. -/
theorem exists_resolverFor?_standard {β : Type} (n : Query.Node β) :
    ∃ r, Router.standard.resolverFor? n = some r := by
  have hall : ∀ r : Resolver, r ∈ Router.standard.resolvers := by
    intro r
    cases r <;> decide
  have haccepts : ∃ r : Resolver, r.accepts n := by
    cases n with
    | root root                    => exact ⟨.source, rfl⟩
    | filter predicate p           => exact ⟨.filter, rfl⟩
    | union l r                    => exact ⟨.union, rfl⟩
    | flatten p                    => exact ⟨.arrayIteration, rfl⟩
    | step field isArray p         =>
        cases hview : View.ofField? field with
        | none      => exact ⟨.step, by simp [Resolver.accepts, Query.Node.field?, hview]⟩
        | some view => exact ⟨.clothing, by simp [Resolver.accepts, Query.Node.field?, hview]⟩
  obtain ⟨r, hr⟩ := haccepts
  exact Option.isSome_iff_exists.1 (List.find?_isSome.2 ⟨r, hall r, hr⟩)

/-- A node with one branch fails as the branch does, before anything else. -/
theorem resolve_tells_of_branch {p : Query} {r : Resolver} (hd : d < c.settings.maxDepth)
    (hr : c.router.resolverFor? q.node = some r) (hbranches : q.branches = [p]) {e : QueryError}
    {t : Trace} (hp : (c.resolve p (d + 1)).Tells (.error e) t) : (c.resolve q d).Tells (.error e) t := by
  obtain ⟨make, hby, -⟩ := r.resolve_accepted c.toAsking (Router.accepts_of_resolverFor? hr)
    fun p => c.resolve p (d + 1)
  rw [hbranches, List.mapM_cons] at hby
  have hfails : (c.resolveBy r q d).Tells (.error e) t := by
    rw [show c.resolveBy r q d = _ from hby]
    exact (hp.bind_error _).bind_error make
  have htells := resolve_tells hd hr hfails
  rwa [c.within_error_of_lt hd] at htells

/-- **Without unions, a query that does not fit fails for its depth, and nothing is told of it.** -/
theorem resolve_exceeding (hc : c.router = .standard) (hq : q.hasUnion = false)
    (h : c.settings.maxDepth < d + q.depth) :
    (c.resolve q d).Tells (.error (.depthExceeded c.settings.maxDepth)) [] := by
  have htoo : ∀ q d, c.settings.maxDepth ≤ d →
      (c.resolve q d).Tells (.error (.depthExceeded c.settings.maxDepth)) [] := by
    intro q d hd
    rw [c.resolve_eq]
    exact c.dispatch_too_deep _ hd
  induction q generalizing d with
  | root root         =>
      rw [Query.depth] at h
      exact htoo _ d (by omega)
  | union l r         => cases hq
  | step _ _ p ih | filter _ p ih | flatten p ih =>
      rw [Query.depth] at h
      rcases Nat.lt_or_ge d c.settings.maxDepth with hd | hd
      · obtain ⟨r, hr⟩ := exists_resolverFor?_standard (Query.node _)
        exact resolve_tells_of_branch hd (hc ▸ hr) rfl (ih hq (by omega))
      · exact htoo _ d hd

end Context

/-- **The bound on the depth is exact.**  Under the standard router, whatever the world, the actor, the scene
and the settings are, and whatever the score table remembers: a query that is no deeper than the bound is
not found too deep; a deeper one has neither a set nor an answer; and if it has no union, it fails for its
depth, and the trace is empty. -/
theorem Engine.depth_bound_is_exact (settings : Settings) (scores : ScoreTable) (q : Query)
    (actor : EntityId) (scene : Scene) (traced : Bool) :
    let e : Engine := ⟨settings, .standard, scores⟩
    let report := (e.ask q actor scene traced).1
    (q.depth ≤ settings.maxDepth → ∀ limit, report.outcome ≠ .error (.depthExceeded limit)) ∧
    (settings.maxDepth < q.depth →
      (∀ s, ((e.context actor scene traced).resolve q 0).result e.begin ≠ .ok s) ∧
      (∀ answer, report.outcome ≠ .ok answer) ∧
      (q.hasUnion = false →
        report.account = { outcome := .error (.depthExceeded settings.maxDepth), trace := [] })) := by
  intro e report
  let c := e.context actor scene traced
  have houtcome : report.outcome = (c.outcome q 0).bind Answer.ofSet :=
    e.ask_outcome rfl q actor scene traced
  have hno : settings.maxDepth < q.depth → ∀ s, c.outcome q 0 ≠ .ok s := by
    intro hdeep s hs
    have hfits : 0 + q.depth ≤ settings.maxDepth := Context.fits_of_outcome hs
    omega
  refine ⟨fun hfits limit hlimit => ?_, fun hdeep => ⟨fun s hs => ?_, fun answer hanswer => ?_, fun hq => ?_⟩⟩
  · rcases Attempt.bind_eq_error.1 (houtcome.symm.trans hlimit) with h | ⟨s, -, h⟩
    · have hdeep : settings.maxDepth < 0 + q.depth := Context.exceeds_of_outcome h
      omega
    · obtain ⟨d, -, hd⟩ := Answer.exists_of_ofSet_eq_error h
      cases hd
  · exact hno hdeep s (((c.resolve_comesTo rfl q 0).result_eq e.begin).symm.trans hs)
  · obtain ⟨s, hs, -⟩ := Attempt.bind_eq_ok.1 (houtcome.symm.trans hanswer)
    exact hno hdeep s hs
  · have hdeep : c.settings.maxDepth < 0 + q.depth := by
      rwa [Nat.zero_add]
    exact e.ask_account (Context.resolve_exceeding rfl hq hdeep)

/-- Where every reading fails, the step to a squire fails for its reading, and the step to the squire of a
squire for its depth.  In a union with the latter, whatever is left of it is read first. -/
theorem Engine.squires_of_squires_are_too_deep :
    let plan : FaultPlan := { reads := [{}], listings := [{}] }
    let scene : Scene := { world := plan.applyTo (∅ : Store).world }
    let report := fun q => ((Engine.mk { maxDepth := 2 } .standard default).ask q "hero" scene true).1
    let squire : Query := .step "squire" false (.root .actor)
    let second : Query := .step "squire" false squire
    let squires : Query := .root (.entities "squire")
    (report squire).outcome = .error (.unread (.unreadable "hero" "squire" "fault")) ∧
    (∀ limit, (report squire).outcome ≠ .error (.depthExceeded limit)) ∧
    (report second).account = { outcome := .error (.depthExceeded 2), trace := [] } ∧
    (∀ answer, (report (.union squires second)).outcome ≠ .ok answer) ∧
    (report (.union squires second)).outcome = .error (.unread (.unavailable "fault")) := by
  intro plan scene report squire second squires
  have hbound := fun q => depth_bound_is_exact { maxDepth := 2 } default q "hero" scene true
  obtain ⟨-, -, hlinear⟩ := (hbound second).2 (by decide)
  obtain ⟨-, hunited, -⟩ := (hbound (.union squires second)).2 (by decide)
  exact ⟨rfl, (hbound squire).1 (by decide), hlinear rfl, hunited, rfl⟩

end EntityQuery
