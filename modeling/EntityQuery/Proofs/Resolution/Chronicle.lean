import EntityQuery.Proofs.Engine.Account
import EntityQuery.Proofs.Resolution.Noting
import EntityQuery.Proofs.Resolution.Outcome

/-!
# The trace of a query

The trace of a query is the chronicle of its resolution.  It consists of passages, one for each node, in
the order of the places of the query, and tells of each node which resolver made its set, and of how many
candidates (`Context.PassageOn`).  If a resolution fails, its trace breaks off where it does.

* `Context.Traverses.bind`: parts of a run that traverse places, one after the other, traverse the places
  of both.
* `Context.resolve_traverses`: the resolution of a query traverses its places, whichever resolvers the
  router knows and in whatever state the run is.
* `Engine.trace_chronicles`: so the trace that an engine reports has an entry for each node or, if the
  resolution fails, for each of the first few; and an engine that is to leave no trace reports the same
  outcome.
-/

namespace EntityQuery

open Query (Place)

namespace Trace

/-- The entries on nodes. -/
def summaries (t : Trace) : Trace :=
  t.filter (·.level = .info)

theorem summaries_append (t u : Trace) : (t ++ u).summaries = t.summaries ++ u.summaries :=
  List.filter_append t u

theorem summaries_of_warns {t : Trace} (h : ∀ w ∈ t, w.Warns) : t.summaries = [] := by
  refine List.filter_eq_nil_iff.2 fun w hw => ?_
  rw [(h w hw).level]
  decide

theorem Passage.TellsOf.summaries_eq {p : Passage} {r : Resolver} {got made : Nat}
    (h : p.TellsOf r got made) : p.entries.summaries = [p.entry] := by
  have hentry : summaries [p.entry] = [p.entry] := List.filter_eq_self.2 fun entry hmem => by
    rw [List.mem_singleton.1 hmem, h.level]
    rfl
  rw [Passage.entries, summaries_append, summaries_of_warns h.warnings, hentry, List.nil_append]

end Trace

namespace Context

variable (c : Context)

/-! ### Passages on places -/

/-- The node at a place is resolved to a set. -/
def ResolvesTo (p : Place) (s : CandidateSet) : Prop :=
  (c.resolve p.query p.depth).ComesTo (.ok s)

/-- A passage tells that the resolver of the node at a place made a set of the sets of the branches. -/
def PassageOn (p : Place) (made : CandidateSet) (passage : Trace.Passage) : Prop :=
  ∃ (r : Resolver) (got : List CandidateSet),
    c.router.resolverFor? p.query.node = some r ∧
    (c.resolveBy r p.query p.depth).ComesTo (.ok made) ∧
    List.Forall₂ (fun branch s => c.ResolvesTo ⟨branch, p.depth + 1⟩ s) p.query.branches got ∧
    passage.TellsOf r (CandidateSet.total got) made.size

/-- Of each place there is a passage, in order. -/
def Recounts (ps : List Place) (passages : List Trace.Passage) : Prop :=
  List.Forall₂ (fun p passage => ∃ made, c.PassageOn p made passage) ps passages

/-- Of each place there is a passage, in order, and what was made there is what it is resolved to.  So what
a node got, by its passage, is what was made at its branches, by theirs. -/
def RecountsAll (ps : List Place) (passages : List Trace.Passage) : Prop :=
  List.Forall₂ (fun p passage => ∃ s, c.ResolvesTo p s ∧ c.PassageOn p s passage) ps passages

variable {c}

theorem RecountsAll.recounts {ps : List Place} {passages : List Trace.Passage}
    (h : c.RecountsAll ps passages) : c.Recounts ps passages :=
  h.imp fun _ _ ⟨s, _, hpassage⟩ => ⟨s, hpassage⟩

theorem RecountsAll.resolves {ps : List Place} {passages : List Trace.Passage}
    (h : c.RecountsAll ps passages) : ∀ p ∈ ps, ∃ s, c.ResolvesTo p s := by
  have hboth : List.Forall₂ (fun p (_ : Trace.Passage) => (∃ s, c.ResolvesTo p s) ∧ True) ps passages :=
    h.imp fun _ _ ⟨s, hs, _⟩ => ⟨⟨s, hs⟩, trivial⟩
  exact ((List.forall₂_and_left ps passages).1 hboth).1

theorem Recounts.summaries_eq {ps : List Place} {passages : List Trace.Passage}
    (h : c.Recounts ps passages) :
    Trace.summaries (passages.flatMap (·.entries)) = passages.map (·.entry) := by
  induction h with
  | nil                => rfl
  | cons hpassage _ ih =>
      obtain ⟨_, _, _, -, -, -, htells⟩ := hpassage
      rw [List.flatMap_cons, Trace.summaries_append, ih, htells.summaries_eq, List.map_cons,
        List.singleton_append]

/-! ### Parts that traverse places -/

variable (c) in
/-- A part of a run traverses places: it resolves the nodes there and notes a passage on each, or it fails
and has noted passages on the first of them, and perhaps warnings on the next one. -/
inductive Traverses {α : Type} (x : Resolving α) (ps : List Place) (Ends : α → Prop) : Prop where
  | throughout {a : α} {passages : List Trace.Passage}
      (hx : x.Tells (.ok a) (passages.flatMap (·.entries)))
      (hpassages : c.RecountsAll ps passages) (ha : Ends a)
  | partway {e : QueryError} {told : List Place} {passages : List Trace.Passage} {rest : Trace}
      (hx : x.Tells (.error e) (passages.flatMap (·.entries) ++ rest))
      (hpassages : c.Recounts told passages) (htold : told <+: ps) (hrest : ∀ w ∈ rest, w.Warns)

namespace Traverses

variable {α β : Type} {ps ps' : List Place} {P : α → Prop} {Q : β → Prop}

theorem pure {a : α} (ha : P a) : c.Traverses (pure a) [] P := by
  have hx : Resolving.Tells (Pure.pure a) (.ok a) (([] : List Trace.Passage).flatMap (·.entries)) :=
    .pure a
  exact .throughout hx .nil ha

/-- What fails before any place is traversed all the same. -/
theorem refused {x : Resolving α} {e : QueryError} (h : x.Tells (.error e) []) : c.Traverses x ps P := by
  have hx : x.Tells (.error e) (([] : List Trace.Passage).flatMap (·.entries) ++ []) := h
  exact .partway hx .nil ps.nil_prefix nofun

/-- **One part after the other traverses the places of both.** -/
theorem bind {x : Resolving α} {f : α → Resolving β} (hx : c.Traverses x ps P)
    (hf : ∀ a, P a → c.Traverses (f a) ps' Q) : c.Traverses (x >>= f) (ps ++ ps') Q := by
  cases hx with
  | partway hx hpassages htold hrest =>
      exact .partway (hx.bind_error f) hpassages (htold.trans (List.prefix_append ps ps')) hrest
  | throughout hx hpassages ha =>
      cases hf _ ha with
      | throughout hfa hpassages' hb =>
          have hboth := hx.bind_ok hfa
          rw [← List.flatMap_append] at hboth
          exact .throughout hboth (List.rel_append hpassages hpassages') hb
      | partway hfa hpassages' htold hrest =>
          have htold : ps ++ _ <+: ps ++ ps' := (List.prefix_append_right_inj ps).2 htold
          have hboth := hx.bind_ok hfa
          rw [← List.append_assoc, ← List.flatMap_append] at hboth
          exact .partway hboth (List.rel_append hpassages.recounts hpassages') htold hrest

end Traverses

/-! ### Resolutions -/

/-- Queries resolved one after the other traverse the places of all, if each traverses its own. -/
theorem mapM_traverses {branches : List Query} {d : Nat}
    (h : ∀ q ∈ branches, c.Traverses (c.resolve q d) (q.places d) fun s => c.ResolvesTo ⟨q, d⟩ s) :
    c.Traverses (branches.mapM fun q => c.resolve q d) (branches.flatMap (·.places d))
      (List.Forall₂ (fun q s => c.ResolvesTo ⟨q, d⟩ s) branches) := by
  induction branches with
  | nil          => exact .pure .nil
  | cons q qs ih =>
      obtain ⟨hq, hqs⟩ := List.forall_mem_cons.1 h
      rw [List.mapM_cons, List.flatMap_cons]
      refine hq.bind fun s hs => ?_
      rw [← List.append_nil (qs.flatMap _)]
      exact (ih hqs).bind fun ss hss => .pure (.cons hs hss)

variable {q : Query} {d : Nat} {r : Resolver}

/-- A node that goes to a resolver is resolved by it, within the bounds. -/
theorem resolve_tells (hd : d < c.settings.maxDepth) (hr : c.router.resolverFor? q.node = some r)
    {made : Except QueryError CandidateSet} {t : Trace} (h : (c.resolveBy r q d).Tells made t) :
    (c.resolve q d).Tells (c.within d made) t := by
  rw [c.resolve_eq]
  exact c.dispatch_tells hd ((Query.Node.resolverFor?_map _ _ _).trans hr) h

/-- A query of which all nodes have noted their passages traverses its places, though it may still fail
for the size of the set of the topmost one. -/
theorem traverses_of_made (hd : d < c.settings.maxDepth) (hr : c.router.resolverFor? q.node = some r)
    {passages : List Trace.Passage} {passage : Trace.Passage} {s : CandidateSet}
    (hmade : (c.resolveBy r q d).Tells (.ok s) (passages.flatMap (·.entries) ++ passage.entries))
    (hpassages : c.RecountsAll (q.branches.flatMap (·.places (d + 1))) passages)
    (hpassage : c.PassageOn ⟨q, d⟩ s passage) :
    c.Traverses (c.resolve q d) (q.places d) fun s => c.ResolvesTo ⟨q, d⟩ s := by
  have hentries : passages.flatMap (·.entries) ++ passage.entries =
      (passages ++ [passage]).flatMap (·.entries) := by
    rw [List.flatMap_append, List.flatMap_singleton]
  have hends := resolve_tells hd hr hmade
  rw [hentries] at hends
  rw [Query.places_eq]
  cases hwithin : c.within d (.ok s) with
  | ok s'   =>
      obtain ⟨-, ⟨⟩, -⟩ := c.within_eq_ok.1 hwithin
      rw [hwithin] at hends
      have hs : c.ResolvesTo ⟨q, d⟩ s := ⟨_, hends⟩
      exact .throughout hends (List.rel_append hpassages (.cons ⟨s, hs, hpassage⟩ .nil)) hs
  | error e =>
      rw [hwithin, ← List.append_nil (List.flatMap _ _)] at hends
      exact .partway hends (List.rel_append hpassages.recounts (.cons ⟨s, hpassage⟩ .nil))
        (List.prefix_refl _) nofun

/-- **The resolution of a query traverses its places.** -/
theorem resolve_traverses (htraced : c.traced = true) (q : Query) (d : Nat) :
    c.Traverses (c.resolve q d) (q.places d) fun s => c.ResolvesTo ⟨q, d⟩ s := by
  induction q using Query.branch_induction generalizing d with
  | h q ih =>
  rcases Nat.lt_or_ge d c.settings.maxDepth with hd | hd
  case inr =>
    rw [c.resolve_eq]
    exact .refused (c.dispatch_too_deep _ hd)
  cases hr : c.router.resolverFor? q.node with
  | none   =>
      rw [c.resolve_eq]
      exact .refused (c.dispatch_unrouted hd ((Query.Node.resolverFor?_map _ _ _).trans hr))
  | some r =>
      obtain ⟨make, hby, hnotes⟩ := r.resolve_accepted c.toAsking (Router.accepts_of_resolverFor? hr)
        fun p => c.resolve p (d + 1)
      replace hby : c.resolveBy r q d = q.branches.mapM (fun p => c.resolve p (d + 1)) >>= make := hby
      have hfirst : q.branches.flatMap (·.places (d + 1)) <+: q.places d := by
        rw [Query.places_eq]
        exact List.prefix_append _ _
      -- The branches come first.  Where they break off, the node does.
      cases mapM_traverses fun p hp => ih p hp (d + 1) with
      | partway hx hpassages htold hrest =>
          have hfails := resolve_tells hd hr (hby ▸ hx.bind_error make)
          rw [c.within_error_of_lt hd] at hfails
          exact .partway hfails hpassages (htold.trans hfirst) hrest
      | @throughout got passages hx hpassages hbranches =>
          cases hnotes htraced got hbranches.length_eq.symm with
          | failed hfailed hwarnings =>
              have hfails := resolve_tells hd hr (hby ▸ hx.bind_ok hfailed)
              rw [c.within_error_of_lt hd] at hfails
              exact .partway hfails hpassages.recounts hfirst hwarnings
          | made hmade hpassage      =>
              have hresolved := hby ▸ hx.bind_ok hmade
              exact traverses_of_made hd hr hresolved hpassages
                ⟨r, got, hr, ⟨_, hresolved⟩, hbranches, hpassage⟩

end Context

namespace Engine

/-- An engine resolves in the same way with and without a trace. -/
theorem between_traced (e : Engine) (actor : EntityId) (scene : Scene) :
    Comparison.muting.Between (e.context actor scene true) (e.context actor scene false) where
  toAlike := (e.context actor scene true).alike_tracing
  router := rfl
  depth := Comparison.muting.boundDepth (e.context actor scene true)
  size := Comparison.muting.boundSize (e.context actor scene true)

theorem resolvesTo_iff_traced (e : Engine) (actor : EntityId) (scene : Scene) (traced : Bool)
    {p : Place} {s : CandidateSet} :
    (e.context actor scene traced).ResolvesTo p s ↔ (e.context actor scene true).ResolvesTo p s := by
  cases traced with
  | true  => exact Iff.rfl
  | false =>
      obtain ⟨r, t, htraced, huntraced⟩ := (e.between_traced actor scene).resolve p.query p.depth
      constructor
      · intro h
        obtain rfl : r = .ok s := (huntraced e.begin).1.symm.trans (h.result_eq e.begin)
        exact ⟨t, htraced⟩
      · intro h
        obtain rfl : r = .ok s := (htraced e.begin).1.symm.trans (h.result_eq e.begin)
        exact ⟨[], huntraced⟩

/-- Where a query is resolved, all its nodes are. -/
theorem resolves_places (e : Engine) (q : Query) (actor : EntityId) (scene : Scene) (traced : Bool)
    {s : CandidateSet} (h : (e.context actor scene traced).ResolvesTo ⟨q, 0⟩ s) :
    ∀ p ∈ q.places 0, ∃ s, (e.context actor scene traced).ResolvesTo p s := by
  intro p hp
  have h := ((e.resolvesTo_iff_traced actor scene traced).1 h).result_eq e.begin
  cases Context.resolve_traverses (c := e.context actor scene true) rfl q 0 with
  | throughout _ hpassages _ =>
      obtain ⟨s, hs⟩ := hpassages.resolves p hp
      exact ⟨s, (e.resolvesTo_iff_traced actor scene traced).2 hs⟩
  | partway hx _ _ _ => cases h.symm.trans (hx e.begin).1

/-- **The trace of a query has an entry for each node, in the order of the places, and beside these only
warnings of filters.**  The entry on a node tells which resolver the node went to, how many candidates
are in its set, and how many in the sets of its branches.  The warnings of a filter come right before its
entry and are as many as the failures that it tells of.  If the resolution fails, there are entries for
the first few nodes only.  Without a trace the outcome is the same. -/
theorem trace_chronicles (e : Engine) (q : Query) (actor : EntityId) (scene : Scene) :
    let c := e.context actor scene true
    let report := (e.ask q actor scene true).1
    let untraced := (e.ask q actor scene false).1
    (match (c.resolve q 0).result e.begin with
      | .ok _    => ∃ passages, c.RecountsAll (q.places 0) passages ∧
          report.trace = passages.flatMap (·.entries) ∧
          report.trace.summaries = passages.map (·.entry)
      | .error _ => ∃ told passages rest, told <+: q.places 0 ∧ c.Recounts told passages ∧
          report.trace = passages.flatMap (·.entries) ++ rest ∧ (∀ w ∈ rest, w.Warns) ∧
          report.trace.summaries = passages.map (·.entry)) ∧
      untraced.outcome = report.outcome ∧ untraced.trace = [] := by
  intro c report untraced
  constructor
  · cases Context.resolve_traverses (c := c) rfl q 0 with
    | @throughout s passages hx hpassages _ =>
        have htrace : report.trace = passages.flatMap (·.entries) :=
          congrArg Account.trace (e.ask_account hx)
        rw [(hx e.begin).1]
        exact ⟨passages, hpassages, htrace, htrace ▸ hpassages.recounts.summaries_eq⟩
    | @partway err told passages rest hx hpassages htold hrest =>
        have htrace : report.trace = passages.flatMap (·.entries) ++ rest :=
          congrArg Account.trace (e.ask_account hx)
        have hsummaries : report.trace.summaries = passages.map (·.entry) := by
          rw [htrace, Trace.summaries_append, Trace.summaries_of_warns hrest, List.append_nil]
          exact hpassages.summaries_eq
        rw [(hx e.begin).1]
        exact ⟨told, passages, rest, htold, hpassages, htrace, hrest, hsummaries⟩
  · obtain ⟨r, t, htraced, huntraced⟩ := (e.between_traced actor scene).resolve q 0
    have hreport : report.account = ⟨r.bind Answer.ofSet, t⟩ := e.ask_account htraced
    have huntraced : untraced.account = ⟨r.bind Answer.ofSet, []⟩ := e.ask_account huntraced
    exact ⟨(congrArg Account.outcome huntraced).trans (congrArg Account.outcome hreport).symm,
      congrArg Account.trace huntraced⟩

end Engine

end EntityQuery
