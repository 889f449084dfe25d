import EntityQuery.Proofs.Predicate.Connectives
import EntityQuery.Proofs.Predicate.Extension
import EntityQuery.Proofs.Resolution.Depth
import EntityQuery.Proofs.Resolution.Distribution

/-!
# The algebra of filters

A filter asks its predicate of one candidate after the other, and keeps those of which it holds or fails
with the first that it cannot judge.  Filters one above the other ask the inner predicate of all candidates
before they ask the outer one of any, where one filter by the conjunction asks both of each candidate in
turn.  So they may fail with different errors; but they fail in the same cases, and otherwise keep the
same.

* `Asking.verdict_conjunction`: of a candidate, the verdict of a conjunction is the one of its first operand
  and then, if that keeps the candidate, the one of the second.
* `Asking.treat_filter_filter`: so two filters keep what their conjunction keeps.
* `Asking.treat_filter_eq_of_unfailing`: if failing predicates only exclude, and the world never fails, a
  filter fails for the first descriptor alone, whatever its predicate.

`Engine.filter_laws` puts these together for whole queries, whichever resolvers the router knows.
-/

namespace EntityQuery

open Attire (ScoreTable)
open Predicate (conjunction truthy)

/-! ### Sets -/

namespace CandidateSet

variable (s : CandidateSet) (keeps keeps' : Candidate → Bool)

/-- The members that are kept, in the same order. -/
def filter : CandidateSet where
  toList := s.toList.filter keeps
  distinct := s.distinct.sublist (List.filter_sublist.map _)

theorem ofList_filter : ofList (s.toList.filter keeps) = s.filter keeps :=
  ext_toList (toList_extend_of_nodup (s.filter keeps).distinct)

theorem filter_filter : (s.filter keeps).filter keeps' = s.filter fun c => keeps c && keeps' c := by
  refine ext_toList ((List.filter_filter).trans (List.filter_congr fun c _ => ?_))
  exact Bool.and_comm _ _

theorem flatMap_kept (cs : List Candidate) :
    cs.flatMap (fun c => if keeps c then [c] else []) = cs.filter keeps := by
  induction cs with
  | nil          => rfl
  | cons c cs ih =>
      rw [List.flatMap_cons, List.filter_cons, ih]
      split <;> rfl

theorem size_filter_le : (s.filter keeps).size ≤ s.size :=
  List.length_filter_le _ _

theorem filter_congr {keeps keeps' : Candidate → Bool} (h : ∀ c ∈ s.toList, keeps c = keeps' c) :
    s.filter keeps = s.filter keeps' :=
  ext_toList (List.filter_congr h)

end CandidateSet

/-! ### Candidates -/

namespace Asking

variable (a : Asking) (p q : Json) {c : Candidate} {s t : CandidateSet}

/-- What a filter makes of a candidate for what its predicate comes to. -/
def judge (c : Candidate) : Except PredicateError Json → Except QueryError Bool
  | .ok v                  => .ok (truthy v)
  | .error (.unread fault) => .error (.unread fault)
  | .error e               => if a.settings.strictFilters then .error (.filterFailed c.text e) else .ok false

/-- Whether a filter keeps a candidate. -/
def verdict (predicate : Json) : Candidate → Except QueryError Bool
  | .descriptor d              => .error (.unresolvedDescriptor d.owner d.view)
  | c@(.entity _) | c@(.value _) => a.judge c (a.test predicate c)

/-- A filter keeps no candidate for a predicate that fails. -/
theorem judge_error_ne_ok_true (c : Candidate) (e : PredicateError) : a.judge c (.error e) ≠ .ok true := by
  unfold judge
  split
  · rename_i h
    cases h
  · nofun
  · split <;> nofun

theorem found_filter (c : Candidate) :
    a.found (.filter p) c = (a.verdict p c).map fun kept => if kept then [c] else [] := by
  have hjudge : ∀ c, (match a.test p c with
      | .ok v                  => .ok (if truthy v then [c] else [])
      | .error (.unread fault) => .error (.unread fault)
      | .error e               =>
          if a.settings.strictFilters then .error (.filterFailed c.text e) else .ok []) =
        (a.judge c (a.test p c)).map fun kept => if kept then [c] else [] := by
    intro c
    unfold judge
    split
    · rfl
    · rfl
    · split <;> rfl
  cases c with
  | descriptor d       => rfl
  | entity _ | value _ => exact hjudge _

/-- The second operand of a conjunction is evaluated if the first one is true. -/
theorem test_conjunction (c : Candidate) :
    a.test (conjunction [p, q]) c = (do
      let v ← a.test p c
      if truthy v = false then return v else a.test q c) := by
  unfold test Predicate.Bindings.evaluate
  rw [Predicate.eval_conjunction, Predicate.evalUntil_cons]
  refine congrArg _ (funext fun v => ?_)
  split
  · rfl
  · rw [Predicate.evalUntil_cons]
    cases Predicate.eval _ _ q with
    | error e => rfl
    | ok w    =>
        show (if truthy w = false then Except.ok w else Predicate.evalUntil _ _ _ w []) = _
        rw [Predicate.evalUntil, ite_self]

/-- **The verdict of a conjunction is the verdict of its operands, one after the other.** -/
theorem verdict_conjunction (c : Candidate) :
    a.verdict (conjunction [p, q]) c = (do if ← a.verdict p c then a.verdict q c else return false) := by
  have hjudge : ∀ c, a.judge c (a.test (conjunction [p, q]) c) = (do
      if ← a.judge c (a.test p c) then a.judge c (a.test q c) else return false) := by
    intro c
    rw [test_conjunction]
    cases a.test p c with
    | ok v    =>
        show a.judge c (if truthy v = false then .ok v else a.test q c) =
          if truthy v then a.judge c (a.test q c) else .ok false
        cases hv : truthy v with
        | false => exact congrArg Except.ok hv
        | true  => rfl
    | error e =>
        show a.judge c (.error e) = a.judge c (.error e) >>= _
        cases hkept : a.judge c (.error e) with
        | error e' => rfl
        | ok kept  =>
            cases kept with
            | false => rfl
            | true  => exact (a.judge_error_ne_ok_true c e hkept).elim
  cases c with
  | descriptor d       => rfl
  | entity _ | value _ => exact hjudge _

/-- Two filters by one predicate judge as one does. -/
theorem verdict_conjunction_self (c : Candidate) : a.verdict (conjunction [p, p]) c = a.verdict p c := by
  rw [verdict_conjunction]
  cases a.verdict p c with
  | error e => rfl
  | ok kept => cases kept <;> rfl

/-- Whether a filter keeps a candidate, and does not where it cannot judge it. -/
def keeps (predicate : Json) (c : Candidate) : Bool :=
  (a.verdict predicate c).toOption.getD false

variable {a p q}

theorem keeps_of_verdict {kept : Bool} (h : a.verdict p c = .ok kept) : a.keeps p c = kept := by
  rw [keeps, h]
  rfl

theorem verdict_conjunction_eq_ok_iff :
    (∃ kept, a.verdict (conjunction [p, q]) c = .ok kept) ↔
      (∃ kept, a.verdict p c = .ok kept) ∧ (a.keeps p c → ∃ kept, a.verdict q c = .ok kept) := by
  rw [verdict_conjunction]
  cases hp : a.verdict p c with
  | error e => exact ⟨nofun, fun h => nomatch h.1⟩
  | ok kept =>
      rw [keeps_of_verdict hp]
      cases kept with
      | false => exact ⟨fun _ => ⟨⟨false, rfl⟩, nofun⟩, fun _ => ⟨false, rfl⟩⟩
      | true  => exact ⟨fun h => ⟨⟨true, rfl⟩, fun _ => h⟩, fun h => h.2 rfl⟩

theorem keeps_conjunction (h : ∃ kept, a.verdict (conjunction [p, q]) c = .ok kept) :
    a.keeps (conjunction [p, q]) c = (a.keeps p c && a.keeps q c) := by
  obtain ⟨kept, hp⟩ := (verdict_conjunction_eq_ok_iff.1 h).1
  rw [keeps_of_verdict hp, keeps, verdict_conjunction, hp]
  cases kept <;> rfl

/-! ### Filters -/

/-- A filter has a set if it can judge all candidates, and then keeps those that it is to keep. -/
theorem treat_filter_eq_ok_iff :
    a.treat (.filter p) s = .ok t ↔
      (∀ c ∈ s.toList, ∃ kept, a.verdict p c = .ok kept) ∧ t = s.filter (a.keeps p) := by
  have hfound : ∀ c, (∃ found, a.found (.filter p) c = .ok found) ↔ ∃ kept, a.verdict p c = .ok kept := by
    intro c
    rw [found_filter]
    cases a.verdict p c with
    | error e => exact ⟨nofun, nofun⟩
    | ok kept => exact ⟨fun _ => ⟨kept, rfl⟩, fun _ => ⟨_, rfl⟩⟩
  have hfinds : a.finds (.filter p) = fun c => if a.keeps p c then [c] else [] := by
    funext c
    rw [finds, found_filter, keeps]
    cases a.verdict p c <;> rfl
  have hlist : s.toList.flatMap (a.finds (.filter p)) = s.toList.filter (a.keeps p) := by
    rw [hfinds, CandidateSet.flatMap_kept]
  rw [treat_eq_ok_iff, hlist, CandidateSet.ofList_filter]
  simp only [hfound]

theorem filter_keeps_conjunction
    (h : ∀ c ∈ s.toList, ∃ kept, a.verdict (conjunction [p, q]) c = .ok kept) :
    s.filter (a.keeps (conjunction [p, q])) = (s.filter (a.keeps p)).filter (a.keeps q) := by
  rw [CandidateSet.filter_filter]
  exact CandidateSet.filter_congr s fun c hc => keeps_conjunction (h c hc)

/-- **Two filters, one above the other, keep what one by the conjunction keeps.** -/
theorem treat_filter_filter :
    (a.treat (.filter p) s >>= a.treat (.filter q)) = .ok t ↔
      a.treat (.filter (conjunction [p, q])) s = .ok t := by
  rw [Attempt.bind_eq_ok]
  simp only [treat_filter_eq_ok_iff]
  constructor
  · rintro ⟨_, ⟨hp, rfl⟩, hq, rfl⟩
    have hboth : ∀ c ∈ s.toList, ∃ kept, a.verdict (conjunction [p, q]) c = .ok kept := fun c hc =>
      verdict_conjunction_eq_ok_iff.2 ⟨hp c hc, fun hkept => hq c (List.mem_filter.2 ⟨hc, hkept⟩)⟩
    exact ⟨hboth, (filter_keeps_conjunction hboth).symm⟩
  · rintro ⟨hboth, rfl⟩
    refine ⟨s.filter (a.keeps p), ⟨fun c hc => ?_, rfl⟩, fun c hc => ?_, filter_keeps_conjunction hboth⟩
    · exact (verdict_conjunction_eq_ok_iff.1 (hboth c hc)).1
    · obtain ⟨hc, hkept⟩ := List.mem_filter.1 hc
      exact (verdict_conjunction_eq_ok_iff.1 (hboth c hc)).2 hkept

/-- Where a filter has a set, another one by the same predicate changes nothing. -/
theorem treat_filter_self (h : a.treat (.filter p) s = .ok t) : a.treat (.filter p) t = .ok t := by
  have hfound : a.found (.filter (conjunction [p, p])) = a.found (.filter p) := by
    funext c
    rw [found_filter, found_filter, verdict_conjunction_self]
  have htwice : (a.treat (.filter p) s >>= a.treat (.filter p)) = .ok t := by
    rw [treat_filter_filter, treat, hfound]
    exact h
  rwa [h] at htwice

/-! ### Filters that only exclude -/

section Lenient

variable (hlenient : a.settings.strictFilters = false) (hworld : ∀ fault, ¬ a.scene.world.Fails fault)

include hworld in
/-- No predicate fails for a reading in a world that never fails. -/
theorem test_ne_unread (c : Candidate) (fault : ReadFault) : a.test p c ≠ .error (.unread fault) := by
  intro h
  let b : Predicate.Bindings := { scene := a.scene, actor := a.actor, subject := some c }
  have hsame := b.evaluate_same (w := b.scene.world) ⟨id, id, id⟩ p
  rcases hsame with ⟨e, he, hfault⟩ | ⟨hread, -⟩
  · cases h.symm.trans he
    exact hworld fault hfault
  · exact hread _ h trivial

include hlenient hworld

/-- The candidates that cannot be judged are those that cannot be in an answer. -/
theorem verdict_eq_error_iff (p : Json) (c : Candidate) (e : QueryError) :
    a.verdict p c = .error e ↔ Answer.Member.ofCandidate c = .error e := by
  have hjudge : ∀ c, ∃ kept, a.judge c (a.test p c) = .ok kept := by
    intro c
    cases htest : a.test p c with
    | ok v    => exact ⟨truthy v, rfl⟩
    | error e =>
        cases e with
        | unread fault => exact (test_ne_unread hworld c fault htest).elim
        | _            =>
            refine ⟨false, ?_⟩
            unfold judge
            rw [hlenient]
            rfl
  cases c with
  | descriptor d       =>
      exact ⟨fun h => congrArg _ (Except.error.inj h), fun h => congrArg _ (Except.error.inj h)⟩
  | entity _ | value _ =>
      refine ⟨fun h => ?_, nofun⟩
      obtain ⟨kept, hkept⟩ := hjudge _
      cases hkept.symm.trans h

/-- **A filter that only excludes fails where an answer would**, whatever its predicate. -/
theorem treat_filter_eq_of_unfailing (p : Json) (s : CandidateSet) :
    a.treat (.filter p) s = (Answer.ofSet s).map fun _ => s.filter (a.keeps p) := by
  have herror : ∀ c e, a.found (.filter p) c = .error e ↔ Answer.Member.ofCandidate c = .error e := by
    intro c e
    rw [found_filter, Attempt.map_eq_error]
    exact verdict_eq_error_iff hlenient hworld p c e
  cases hmembers : s.toList.mapM Answer.Member.ofCandidate with
  | error e    =>
      have htreat : s.toList.mapM (a.found (.filter p)) = .error e :=
        (Attempt.mapM_eq_error_congr herror s.toList e).2 hmembers
      rw [treat, Answer.ofSet, htreat, hmembers]
      rfl
  | ok members =>
      have hverdict : ∀ c ∈ s.toList, ∃ kept, a.verdict p c = .ok kept := by
        intro c hc
        cases hkept : a.verdict p c with
        | ok kept => exact ⟨kept, rfl⟩
        | error e =>
            have hfails := (verdict_eq_error_iff hlenient hworld p c e).1 hkept
            obtain ⟨member, -, hmember⟩ := Attempt.exists_of_mapM_eq_ok hmembers hc
            cases hmember.symm.trans hfails
      rw [treat_filter_eq_ok_iff.2 ⟨hverdict, rfl⟩, Answer.ofSet, hmembers]
      rfl

/-- Two such filters may change places. -/
theorem treat_filter_comm (p q : Json) (s : CandidateSet) :
    (a.treat (.filter p) s >>= a.treat (.filter q)) = (a.treat (.filter q) s >>= a.treat (.filter p)) := by
  have hboth := fun p => treat_filter_eq_of_unfailing hlenient hworld p s
  cases hanswer : Answer.ofSet s with
  | error e   =>
      rw [hboth, hboth, hanswer]
      rfl
  | ok answer =>
      have hfused : ∀ p q, (a.treat (.filter p) s >>= a.treat (.filter q)) =
          .ok ((s.filter (a.keeps p)).filter (a.keeps q)) := by
        intro p q
        have hconjunction := hboth (conjunction [p, q])
        rw [hanswer] at hconjunction
        obtain ⟨hjudged, -⟩ := treat_filter_eq_ok_iff.1 hconjunction
        rw [treat_filter_filter, treat_filter_eq_ok_iff]
        exact ⟨hjudged, (filter_keeps_conjunction hjudged).symm⟩
      rw [hfused, hfused, CandidateSet.filter_filter, CandidateSet.filter_filter]
      exact congrArg _ (CandidateSet.filter_congr s fun c _ => Bool.and_comm _ _)

end Lenient

end Asking

/-! ### Queries -/

/-- A filter goes to the one resolver of filters, if the router knows it. -/
theorem Router.resolverFor?_filter {β : Type} (router : Router) (p : Json) (branch : β) :
    router.resolverFor? (.filter p branch) =
      if Resolver.filter ∈ router.resolvers then some .filter else none := by
  have haccepts : ∀ r : Resolver, r.accepts (.filter p branch) ↔ r = .filter := by
    intro r
    cases r <;> simp [Resolver.accepts, Query.Node.kind, Query.Node.field?]
  split
  · rename_i hmem
    have hsome : (router.resolverFor? (.filter p branch)).isSome :=
      List.find?_isSome.2 ⟨.filter, hmem, (haccepts .filter).2 rfl⟩
    obtain ⟨r, hr⟩ := Option.isSome_iff_exists.1 hsome
    obtain rfl := (haccepts r).1 (Router.accepts_of_resolverFor? hr)
    exact hr
  · rename_i hmem
    refine List.find?_eq_none.2 fun r hr hr' => hmem ?_
    rwa [← (haccepts r).1 hr']

namespace Context

variable (c : Context) {p q : Json} {r : Except QueryError CandidateSet} {t : CandidateSet}

/-- What a filter makes of what its branch comes to, if the router knows the resolver of filters. -/
def filtering (predicate : Json) (r : Except QueryError CandidateSet) : Except QueryError CandidateSet :=
  if Resolver.filter ∈ c.router.resolvers then r >>= c.treat (.filter predicate)
  else .error (.noResolver .filter)

/-- Above a query that is within the bounds, a filter hits none but the one on the depth. -/
theorem resolve_filter_comesTo_filtering {parent : Query} {d : Nat} (hd : d < c.settings.maxDepth)
    (hr : (c.resolve parent (d + 1)).ComesTo r) :
    (c.resolve (.filter p parent) d).ComesTo (c.filtering p r) := by
  have hresolver := c.router.resolverFor?_filter p (c.resolve parent (d + 1))
  unfold filtering
  split
  · rename_i hmem
    rw [if_pos hmem] at hresolver
    have hfiltered : (Resolver.filter.resolve c.toAsking (.filter p (c.resolve parent (d + 1)))).ComesTo
        (r >>= c.treat (.filter p)) := hr.bind fun s => c.filtered_comesTo p s
    have hwithin : c.within d (r >>= c.treat (.filter p)) = (r >>= c.treat (.filter p)) := by
      cases hmade : r >>= c.treat (.filter p) with
      | error e => exact c.within_error_of_lt hd e
      | ok t    =>
          obtain ⟨s, rfl, ht⟩ := Attempt.bind_eq_ok.1 hmade
          obtain ⟨-, rfl⟩ := Asking.treat_filter_eq_ok_iff.1 ht
          have hs : s.size ≤ c.settings.maxCandidates :=
            ResolvesTo.size_le (p := ⟨parent, d + 1⟩) hr { scores := default }
          exact c.within_eq_ok.2 ⟨hd, rfl, Nat.le_trans (s.size_filter_le _) hs⟩
    rw [← hwithin]
    exact c.dispatch_comesTo hresolver hfiltered d
  · rename_i hmem
    rw [if_neg hmem] at hresolver
    exact ⟨[], c.dispatch_unrouted hd hresolver⟩

variable {c}

theorem filtering_filtering :
    c.filtering q (c.filtering p r) = .ok t ↔ c.filtering (conjunction [p, q]) r = .ok t := by
  unfold filtering
  split
  · cases r with
    | error e => exact ⟨nofun, nofun⟩
    | ok s    => exact Asking.treat_filter_filter
  · exact ⟨nofun, nofun⟩

theorem filtering_self (h : c.filtering p r = .ok t) : c.filtering p (c.filtering p r) = .ok t := by
  rw [h]
  unfold filtering at h ⊢
  split at h
  · obtain ⟨s, -, ht⟩ := Attempt.bind_eq_ok.1 h
    rename_i hmem
    rw [if_pos hmem]
    exact Asking.treat_filter_self ht
  · cases h

theorem filtering_comm (hlenient : c.settings.strictFilters = false)
    (hworld : ∀ fault, ¬ c.scene.world.Fails fault) :
    c.filtering q (c.filtering p r) = c.filtering p (c.filtering q r) := by
  unfold filtering
  split
  · cases r with
    | error e => rfl
    | ok s    => exact Asking.treat_filter_comm hlenient hworld p q s
  · rfl

end Context

/-- **Filters compose like conjunction.**  Whatever the world, the scene, the actor, the settings and the
router are, and whatever the score tables remember, let a query fit under the bound on the depth with two
filters above it:

* the two are answered just where one filter by the conjunction is, with the same members in the same order;
* where a filter is answered, so is another one above it by the same predicate, with the same members;
* if failing predicates only exclude, and the world never fails, the two may change places, and the outcome
  is the same, be it an answer or an error. -/
theorem Engine.filter_laws (settings : Settings) (router : Router) (scores scores' : ScoreTable) (q : Query)
    (a b : Json) (actor : EntityId) (scene : Scene) (traced : Bool)
    (hdepth : q.depth + 2 ≤ settings.maxDepth) :
    let outcome := fun scores q => ((Engine.mk settings router scores).ask q actor scene traced).1.outcome
    (∀ answer, outcome scores (.filter b (.filter a q)) = .ok answer ↔
      outcome scores' (.filter (conjunction [a, b]) q) = .ok answer) ∧
    (∀ answer, outcome scores (.filter a q) = .ok answer →
      outcome scores' (.filter a (.filter a q)) = .ok answer) ∧
    (settings.strictFilters = false → (∀ fault, ¬ scene.world.Fails fault) →
      outcome scores (.filter b (.filter a q)) = outcome scores' (.filter a (.filter b q))) := by
  intro outcome
  let c : Context := { actor, scene, settings, traced, router }
  have houtcome : ∀ scores {q r}, (c.resolve q 0).ComesTo r → outcome scores q = r.bind Answer.ofSet := by
    rintro scores q r ⟨t, ht⟩
    exact congrArg Account.outcome ((Engine.mk settings router scores).ask_account ht)
  -- The branch of one filter stands one node higher than that of two.
  have hfits : 2 + q.depth ≤ c.settings.maxDepth := by
    rwa [Nat.add_comm]
  obtain ⟨r, hr⟩ := c.exists_comesTo_of_fits hfits
  have hone : ∀ p, (c.resolve (.filter p q) 0).ComesTo (c.filtering p r) := fun p =>
    c.resolve_filter_comesTo_filtering (by omega) (hr 1 (by omega))
  have htwo : ∀ p p', (c.resolve (.filter p' (.filter p q)) 0).ComesTo (c.filtering p' (c.filtering p r)) :=
    fun p p' => c.resolve_filter_comesTo_filtering (by omega)
      (c.resolve_filter_comesTo_filtering (by omega) (hr 2 hfits))
  refine ⟨fun answer => ?_, fun answer h => ?_, fun hlenient hworld => ?_⟩
  · rw [houtcome _ (htwo a b), houtcome _ (hone (conjunction [a, b]))]
    exact Attempt.bind_eq_ok.trans ((exists_congr fun s => and_congr_left' Context.filtering_filtering).trans
      Attempt.bind_eq_ok.symm)
  · rw [houtcome _ (hone a)] at h
    obtain ⟨s, hs, hanswer⟩ := Attempt.bind_eq_ok.1 h
    rw [houtcome _ (htwo a a)]
    exact Attempt.bind_eq_ok.2 ⟨s, Context.filtering_self hs, hanswer⟩
  · rw [houtcome _ (htwo a b), houtcome _ (htwo b a), Context.filtering_comm hlenient hworld]

/-- The hero is noble, and nobody is called ghost.  Filters by both keep nobody, in whatever way they are
put together: the failing predicate only excludes. -/
theorem Engine.noble_hero_is_no_ghost :
    let store := (∅ : Store).insert "hero" "noble" (.bool true)
    let outcome := fun q =>
      ((Engine.mk {} .standard default).ask q "hero" { world := store.world } true).1.outcome
    let hero : Query := .root .actor
    let noble : Json := .obj [("var", .str "entity.components.noble")]
    let ghost : Json := .obj [("var", .str "ghost")]
    hero.depth + 2 ≤ Settings.maxDepth {} ∧ (∀ fault, ¬ store.world.Fails fault) ∧
    outcome (.filter noble hero) = .ok ⟨[.entity "hero"]⟩ ∧
    outcome (.filter noble (.filter noble hero)) = .ok ⟨[.entity "hero"]⟩ ∧
    outcome (.filter ghost (.filter noble hero)) = .ok ⟨[]⟩ ∧
    outcome (.filter (conjunction [noble, ghost]) hero) = .ok ⟨[]⟩ ∧
    outcome (.filter noble (.filter ghost hero)) = .ok ⟨[]⟩ := by
  intro store outcome hero noble ghost
  have hdepth : hero.depth + 2 ≤ Settings.maxDepth {} := by decide
  have hworld : ∀ fault, ¬ store.world.Fails fault := by
    rintro fault (⟨⟨⟩⟩ | ⟨⟨⟩⟩ | ⟨⟨⟩⟩)
  let e : Engine := ⟨{}, .standard, default⟩
  let c : Context := e.context "hero" { world := store.world } true
  have houtcome : ∀ q, outcome q = (c.outcome q 0).bind Answer.ofSet := fun q =>
    e.ask_outcome rfl q "hero" { world := store.world } true
  have hkept : c.treat (.filter noble) (.ofEntities ["hero"]) = .ok (.ofEntities ["hero"]) := by
    have htest : c.test noble (.entity "hero") = .ok (.bool true) := Predicate.Bindings.evaluate_variable _ _
    have hfound : c.found (.filter noble) (.entity "hero") = .ok [.entity "hero"] := by
      simp only [Asking.found, Asking.foundByFilter, htest]
      rfl
    exact c.treat_singleton rfl hfound
  have hexcluded : c.treat (.filter ghost) (.ofEntities ["hero"]) = .ok ∅ := by
    have htest : c.test ghost (.entity "hero") = .error (.unknownVariable "ghost") :=
      Predicate.Bindings.evaluate_variable _ _
    have hfound : c.found (.filter ghost) (.entity "hero") = .ok [] := by
      simp only [Asking.found, Asking.foundByFilter, htest]
      rfl
    exact c.treat_singleton rfl hfound
  have hnoble : outcome (.filter noble hero) = .ok ⟨[.entity "hero"]⟩ := by
    rw [houtcome]
    show (c.within 0 (c.treat (.filter noble) (.ofEntities ["hero"]))).bind _ = _
    rw [hkept]
    rfl
  have hboth : outcome (.filter ghost (.filter noble hero)) = .ok ⟨[]⟩ := by
    rw [houtcome]
    show (c.within 0 (c.within 1 (c.treat (.filter noble) (.ofEntities ["hero"])) >>= _)).bind _ = _
    rw [hkept]
    show (c.within 0 (c.treat (.filter ghost) (.ofEntities ["hero"]))).bind _ = _
    rw [hexcluded]
    rfl
  obtain ⟨hconjunction, hself, hcomm⟩ := filter_laws {} .standard default default hero noble ghost "hero"
    { world := store.world } true hdepth
  exact ⟨hdepth, hworld, hnoble, hself _ hnoble, hboth, (hconjunction _).1 hboth,
    (hcomm rfl hworld).symm.trans hboth⟩

end EntityQuery
