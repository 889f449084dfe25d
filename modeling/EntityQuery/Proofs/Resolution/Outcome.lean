import EntityQuery.Engine
import EntityQuery.Proofs.Resolution.Treatment

/-!
# What queries come to

What a query comes to is a function of the query and of what holds throughout its resolution.  Around
each node are the bounds on depth and size (`Context.within`).  Under the standard router:

* `Context.resolve_root_comesTo`, `Context.resolve_union_comesTo`: a root stands for a set, and a union
  unites the sets of its branches, the left one resolved first.
* `Context.resolve_step_comesTo`, `Context.resolve_filter_comesTo`, `Context.resolve_flatten_comesTo`: a
  node with one branch treats the set of the branch.
* `Context.resolve_comesTo`: so every query comes to `Context.outcome`.
* `Engine.ask_outcome`: the answer of an engine is made of that, whatever its score table remembers.
-/

namespace EntityQuery

open Attire (BodySlot View)

/-- The order in which the standard router tries its resolvers. -/
theorem Router.standard_resolvers : standard.resolvers =
    [.clothing, .slot, .source, .step, .filter, .union, .arrayIteration] := rfl

theorem Router.accepts_of_resolverFor? {β : Type} {router : Router} {n : Query.Node β} {r : Resolver}
    (h : router.resolverFor? n = some r) : r.accepts n :=
  List.find?_some (p := fun r : Resolver => r.accepts n) h

namespace Context

variable (c : Context)

/-- A result within the bounds on depth and size. -/
def within (depth : Nat) (r : Except QueryError CandidateSet) : Except QueryError CandidateSet :=
  if c.settings.maxDepth ≤ depth then .error (.depthExceeded c.settings.maxDepth)
  else do
    let s ← r
    if c.settings.maxCandidates < s.size then
      .error (.tooManyCandidates s.size c.settings.maxCandidates)
    else .ok s

theorem within_eq_ok {d : Nat} {r : Except QueryError CandidateSet} {s : CandidateSet} :
    c.within d r = .ok s ↔
      d < c.settings.maxDepth ∧ r = .ok s ∧ s.size ≤ c.settings.maxCandidates := by
  unfold within
  by_cases hd : c.settings.maxDepth ≤ d
  · rw [if_pos hd]
    exact ⟨nofun, fun h => absurd h.1 (Nat.not_lt.2 hd)⟩
  · rw [if_neg hd]
    refine ⟨fun h => ?_, ?_⟩
    · obtain ⟨t, ht, h⟩ := Attempt.bind_eq_ok.1 h
      split at h
      · cases h
      · rename_i hsize
        cases h
        exact ⟨Nat.lt_of_not_le hd, ht, Nat.le_of_not_lt hsize⟩
    · rintro ⟨-, rfl, hsize⟩
      exact if_neg (Nat.not_lt.2 hsize)

/-- An error within the bounds is about a bound, or it was one before. -/
theorem within_eq_error {d : Nat} {r : Except QueryError CandidateSet} {e : QueryError}
    (h : c.within d r = .error e) :
    e = .depthExceeded c.settings.maxDepth ∨
      (∃ n, e = .tooManyCandidates n c.settings.maxCandidates) ∨ r = .error e := by
  unfold within at h
  split at h
  · cases h
    exact .inl rfl
  · rcases Attempt.bind_eq_error.1 h with h | ⟨s, -, h⟩
    · exact .inr (.inr h)
    · split at h
      · cases h
        exact .inr (.inl ⟨s.size, rfl⟩)
      · cases h

theorem within_eq_of_lt {d d' : Nat} (h : d < c.settings.maxDepth) (h' : d' < c.settings.maxDepth)
    (r : Except QueryError CandidateSet) : c.within d r = c.within d' r := by
  rw [within, within, if_neg (Nat.not_le.2 h), if_neg (Nat.not_le.2 h')]

/-- Depth to spare passes an error on. -/
theorem within_error_of_lt {d : Nat} (h : d < c.settings.maxDepth) (e : QueryError) :
    c.within d (.error e) = .error e :=
  if_neg (Nat.not_le.2 h)

/-- What a query comes to under the standard router. -/
def outcome (c : Context) : Query → (depth : Nat) → Except QueryError CandidateSet
  | .root root,                 d => c.within d (c.rootSet root)
  | .step field isArray parent, d => c.within d
      (c.outcome parent (d + 1) >>= c.treat (.ofStep field isArray))
  | .filter predicate parent,   d => c.within d (c.outcome parent (d + 1) >>= c.treat (.filter predicate))
  | .union left right,          d => c.within d (do
      let left ← c.outcome left (d + 1)
      return left.union (← c.outcome right (d + 1)))
  | .flatten parent,            d => c.within d (c.outcome parent (d + 1) >>= c.treat .flatten)

theorem outcome_union_eq_ok {left right : Query} {d : Nat} {r : CandidateSet} :
    c.outcome (.union left right) d = .ok r ↔
      d < c.settings.maxDepth ∧
        (∃ s t, c.outcome left (d + 1) = .ok s ∧ c.outcome right (d + 1) = .ok t ∧ r = s.union t) ∧
        r.size ≤ c.settings.maxCandidates := by
  have hunited : (do
      let left ← c.outcome left (d + 1)
      return left.union (← c.outcome right (d + 1))) = .ok r ↔
        ∃ s t, c.outcome left (d + 1) = .ok s ∧ c.outcome right (d + 1) = .ok t ∧ r = s.union t := by
    constructor
    · intro h
      obtain ⟨s, hs, h⟩ := Attempt.bind_eq_ok.1 h
      obtain ⟨t, ht, h⟩ := Attempt.bind_eq_ok.1 h
      exact ⟨s, t, hs, ht, (Except.ok.inj h).symm⟩
    · rintro ⟨s, t, hs, ht, rfl⟩
      exact Attempt.bind_eq_ok.2 ⟨s, hs, Attempt.bind_eq_ok.2 ⟨t, ht, rfl⟩⟩
  rw [← hunited]
  exact c.within_eq_ok

/-- The set of a query is within the bound on the size. -/
theorem size_le_of_outcome {q : Query} {d : Nat} {s : CandidateSet} (h : c.outcome q d = .ok s) :
    s.size ≤ c.settings.maxCandidates := by
  cases q <;> exact (c.within_eq_ok.1 h).2.2

theorem lt_maxDepth_of_outcome {q : Query} {d : Nat} {s : CandidateSet} (h : c.outcome q d = .ok s) :
    d < c.settings.maxDepth := by
  cases q <;> exact (c.within_eq_ok.1 h).1

/-- At all depths where a query fits within the bound on the depth, it comes to the same. -/
theorem outcome_eq_of_fits {q : Query} {d d' : Nat} (h : d + q.depth ≤ c.settings.maxDepth)
    (h' : d' + q.depth ≤ c.settings.maxDepth) : c.outcome q d = c.outcome q d' := by
  induction q generalizing d d' with
  | root root =>
      rw [Query.depth] at h h'
      exact c.within_eq_of_lt h h' _
  | step field isArray parent ih | filter predicate parent ih | flatten parent ih =>
      rw [Query.depth] at h h'
      have hparent : c.outcome parent (d + 1) = c.outcome parent (d' + 1) := ih (by omega) (by omega)
      rw [outcome, outcome, hparent]
      exact c.within_eq_of_lt (by omega) (by omega) _
  | union left right ihl ihr =>
      rw [Query.depth] at h h'
      have hleft : c.outcome left (d + 1) = c.outcome left (d' + 1) := ihl (by omega) (by omega)
      have hright : c.outcome right (d + 1) = c.outcome right (d' + 1) := ihr (by omega) (by omega)
      rw [outcome, outcome, hleft, hright]
      exact c.within_eq_of_lt (by omega) (by omega) _

/-- Where a query has a set at two depths, it has the same. -/
theorem outcome_unique {q : Query} {d d' : Nat} {s s' : CandidateSet} (h : c.outcome q d = .ok s)
    (h' : c.outcome q d' = .ok s') : s = s' := by
  induction q generalizing d d' s s' with
  | root root =>
      obtain ⟨-, hmade, -⟩ := c.within_eq_ok.1 h
      obtain ⟨-, hmade', -⟩ := c.within_eq_ok.1 h'
      exact Except.ok.inj (hmade.symm.trans hmade')
  | step _ _ parent ih | filter _ parent ih | flatten parent ih =>
      obtain ⟨-, hmade, -⟩ := c.within_eq_ok.1 h
      obtain ⟨-, hmade', -⟩ := c.within_eq_ok.1 h'
      obtain ⟨p, hp, htreat⟩ := Attempt.bind_eq_ok.1 hmade
      obtain ⟨p', hp', htreat'⟩ := Attempt.bind_eq_ok.1 hmade'
      cases ih hp hp'
      exact Except.ok.inj (htreat.symm.trans htreat')
  | union left right ihl ihr =>
      obtain ⟨-, ⟨l, r, hl, hr, rfl⟩, -⟩ := c.outcome_union_eq_ok.1 h
      obtain ⟨-, ⟨l', r', hl', hr', rfl⟩, -⟩ := c.outcome_union_eq_ok.1 h'
      rw [ihl hl hl', ihr hr hr']

/-! ### Dispatch -/

/-- Beyond the bound on the depth nothing is resolved. -/
theorem dispatch_too_deep (n : Query.Node (Resolving CandidateSet)) {d : Nat}
    (hd : c.settings.maxDepth ≤ d) :
    (c.dispatch d n).Tells (.error (.depthExceeded c.settings.maxDepth)) [] := by
  rw [dispatch, if_pos hd]
  exact Resolving.Tells.bind_error (.throw _) _

theorem dispatch_unrouted {n : Query.Node (Resolving CandidateSet)} {d : Nat}
    (hd : d < c.settings.maxDepth) (hr : c.router.resolverFor? n = none) :
    (c.dispatch d n).Tells (.error (.noResolver n.kind)) [] := by
  rw [dispatch, if_neg (Nat.not_le.2 hd), hr]
  exact .throw _

/-- The dispatch of a node tells what its resolver does, within the bounds. -/
theorem dispatch_tells {n : Query.Node (Resolving CandidateSet)} {r : Resolver}
    {made : Except QueryError CandidateSet} {t : Trace} {d : Nat} (hd : d < c.settings.maxDepth)
    (hr : c.router.resolverFor? n = some r) (hmade : (r.resolve c.toAsking n).Tells made t) :
    (c.dispatch d n).Tells (c.within d made) t := by
  have hd := Nat.not_le.2 hd
  rw [dispatch, if_neg hd, hr, within, if_neg hd]
  refine (Resolving.remark_tells _).bind_ok ?_
  cases made with
  | error e => exact hmade.bind_error _
  | ok s    =>
      -- What comes after the resolver is the bound on the size.
      rw [← List.append_nil t]
      refine hmade.bind_ok ?_
      show Resolving.Tells _ (if c.settings.maxCandidates < s.size then _ else _) []
      split
      · exact Resolving.Tells.bind_error (.throw _) _
      · exact .pure s

theorem dispatch_comesTo {n : Query.Node (Resolving CandidateSet)} {r : Resolver}
    {made : Except QueryError CandidateSet} (hr : c.router.resolverFor? n = some r)
    (hmade : (r.resolve c.toAsking n).ComesTo made) (d : Nat) :
    (c.dispatch d n).ComesTo (c.within d made) := by
  obtain ⟨t, ht⟩ := hmade
  rcases Nat.lt_or_ge d c.settings.maxDepth with hd | hd
  · exact ⟨t, c.dispatch_tells hd hr ht⟩
  · rw [within, if_pos hd]
    exact ⟨[], c.dispatch_too_deep n hd⟩

/-! ### Under the standard router -/

theorem resolve_root_comesTo (hc : c.router = .standard) (root : Root) (d : Nat) :
    (c.resolve (.root root) d).ComesTo (c.within d (c.rootSet root)) := by
  refine c.dispatch_comesTo (r := .source) ?_ ?_ d
  · rw [hc]
    rfl
  · exact c.fromRoot_comesTo root

/-- A step along the field of a view goes to the clothing resolver, one to a body slot to the slot
resolver, and any other to the generic one. -/
theorem resolve_step_comesTo (hc : c.router = .standard) (field : String) (isArray : Bool)
    {parent : Query} {d : Nat} {s : Except QueryError CandidateSet}
    (hs : (c.resolve parent (d + 1)).ComesTo s) :
    (c.resolve (.step field isArray parent) d).ComesTo
      (c.within d (s >>= c.treat (.ofStep field isArray))) := by
  unfold Treatment.ofStep
  cases hview : View.ofField? field with
  | some view =>
      refine c.dispatch_comesTo (r := .clothing) ?_ ?_ d
      · rw [hc, Router.resolverFor?, Router.standard_resolvers]
        simp [Resolver.accepts, Query.Node.field?, hview]
      · simp only [Resolver.resolve, hview]
        exact hs.bind fun parent => c.alongView_comesTo view isArray parent
  | none =>
      cases hslot : BodySlot.ofName? field with
      | some bodySlot =>
          refine c.dispatch_comesTo (r := .slot) ?_ ?_ d
          · rw [hc, Router.resolverFor?, Router.standard_resolvers]
            simp [Resolver.accepts, Query.Node.field?, hview, hslot]
          · simp only [Resolver.resolve, hslot]
            exact hs.bind fun parent => c.alongSlot_comesTo bodySlot parent
      | none =>
          refine c.dispatch_comesTo (r := .step) ?_ ?_ d
          · rw [hc, Router.resolverFor?, Router.standard_resolvers]
            simp [Resolver.accepts, Query.Node.field?, Query.Node.kind, hview, hslot]
          · exact hs.bind fun parent => c.alongField_comesTo field isArray parent

theorem resolve_filter_comesTo (hc : c.router = .standard) (predicate : Json) {parent : Query}
    {d : Nat} {s : Except QueryError CandidateSet} (hs : (c.resolve parent (d + 1)).ComesTo s) :
    (c.resolve (.filter predicate parent) d).ComesTo
      (c.within d (s >>= c.treat (.filter predicate))) := by
  refine c.dispatch_comesTo (r := .filter) ?_ ?_ d
  · rw [hc]
    rfl
  · exact hs.bind fun parent => c.filtered_comesTo predicate parent

theorem resolve_flatten_comesTo (hc : c.router = .standard) {parent : Query} {d : Nat}
    {s : Except QueryError CandidateSet} (hs : (c.resolve parent (d + 1)).ComesTo s) :
    (c.resolve (.flatten parent) d).ComesTo (c.within d (s >>= c.treat .flatten)) := by
  refine c.dispatch_comesTo (r := .arrayIteration) ?_ ?_ d
  · rw [hc]
    rfl
  · exact hs.bind fun parent => c.flattened_comesTo parent

theorem resolve_union_comesTo (hc : c.router = .standard) {left right : Query} {d : Nat}
    {s t : Except QueryError CandidateSet} (hs : (c.resolve left (d + 1)).ComesTo s)
    (ht : (c.resolve right (d + 1)).ComesTo t) :
    (c.resolve (.union left right) d).ComesTo
      (c.within d (do let left ← s; return left.union (← t))) := by
  refine c.dispatch_comesTo (r := .union) ?_ ?_ d
  · rw [hc]
    rfl
  · exact hs.bind fun left => ht.bind fun right => c.united_comesTo left right

/-- **The resolution of a query comes to its outcome**, whatever was learnt, remarked and noted before. -/
theorem resolve_comesTo (hc : c.router = .standard) (q : Query) (d : Nat) :
    (c.resolve q d).ComesTo (c.outcome q d) := by
  induction q generalizing d with
  | root root                 => exact c.resolve_root_comesTo hc root d
  | step field isArray _ ih   => exact c.resolve_step_comesTo hc field isArray (ih (d + 1))
  | filter predicate _ ih     => exact c.resolve_filter_comesTo hc predicate (ih (d + 1))
  | union left right ihl ihr  => exact c.resolve_union_comesTo hc (ihl (d + 1)) (ihr (d + 1))
  | flatten _ ih              => exact c.resolve_flatten_comesTo hc (ih (d + 1))

end Context

/-- The answer to a query is made of what the query comes to. -/
theorem Engine.ask_outcome (e : Engine) (he : e.router = .standard) (q : Query) (actor : EntityId)
    (scene : Scene) (traced : Bool) :
    (e.ask q actor scene traced).1.outcome =
      ((e.context actor scene traced).outcome q 0).bind Answer.ofSet := by
  have h := ((e.context actor scene traced).resolve_comesTo he q 0).result_eq e.begin
  rw [← h]
  rfl

end EntityQuery
