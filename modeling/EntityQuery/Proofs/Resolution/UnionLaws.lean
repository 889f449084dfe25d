import EntityQuery.Proofs.Engine.Account
import EntityQuery.Proofs.Resolution.Faithful
import EntityQuery.World.Store

/-!
# The algebra of unions

A union resolves its branches one after the other and puts their sets together.  Where the bound on the
depth lets a query pass, how its unions are nested is of no account:

* `Context.outcome_union_comm`: a union has a set either way round, with the same members.
* `Context.outcome_union_assoc`: unions may be regrouped, and the order of the members is the same.
* `Context.outcome_union_self`, `Context.outcome_union_none`, `Context.outcome_none_union`: a union with
  itself or with nothing is the query itself, in its errors too.
* `Engine.union_laws`: so it is with the answers of an engine.
-/

namespace EntityQuery

open Attire (ScoreTable View)

namespace Context

variable (c : Context) {p q r : Query} {d : Nat} {s : CandidateSet}

/-- What a query comes to is within the bounds already. -/
theorem within_outcome (hd : d < c.settings.maxDepth) (p : Query) :
    c.within d (c.outcome p d) = c.outcome p d := by
  cases hp : c.outcome p d with
  | error e => exact c.within_error_of_lt hd e
  | ok s    => exact c.within_eq_ok.2 ⟨hd, rfl, c.size_le_of_outcome hp⟩

/-- Where there is depth for a union, its branches may as well be resolved at its own depth. -/
theorem outcome_branches_of_fits (h : d + (Query.union p q).depth ≤ c.settings.maxDepth) :
    c.outcome p (d + 1) = c.outcome p d ∧ c.outcome q (d + 1) = c.outcome q d := by
  rw [Query.depth] at h
  exact ⟨c.outcome_eq_of_fits (by omega) (by omega), c.outcome_eq_of_fits (by omega) (by omega)⟩

theorem lt_maxDepth_of_fits (h : d + (Query.union p q).depth ≤ c.settings.maxDepth) :
    d < c.settings.maxDepth := by
  rw [Query.depth] at h
  omega

theorem outcome_union_eq_ok_of_fits (h : d + (Query.union p q).depth ≤ c.settings.maxDepth) :
    c.outcome (.union p q) d = .ok s ↔
      ∃ x y, c.outcome p d = .ok x ∧ c.outcome q d = .ok y ∧ s = x.union y ∧
        s.size ≤ c.settings.maxCandidates := by
  obtain ⟨hp, hq⟩ := c.outcome_branches_of_fits h
  rw [outcome_union_eq_ok, hp, hq]
  constructor
  · rintro ⟨-, ⟨x, y, hx, hy, rfl⟩, hsize⟩
    exact ⟨x, y, hx, hy, rfl, hsize⟩
  · rintro ⟨x, y, hx, hy, rfl, hsize⟩
    exact ⟨c.lt_maxDepth_of_fits h, ⟨x, y, hx, hy, rfl⟩, hsize⟩

/-! ### Order and grouping -/

/-- A union has a set either way round, and it has the same members. -/
theorem outcome_union_comm (h : c.outcome (.union p q) d = .ok s) :
    ∃ t, c.outcome (.union q p) d = .ok t ∧ s.toList.Perm t.toList := by
  obtain ⟨hd, ⟨x, y, hx, hy, rfl⟩, hsize⟩ := c.outcome_union_eq_ok.1 h
  have hperm := CandidateSet.union_perm (c.consistent_of_outcome hx hy)
  have hsize' : (y.union x).size ≤ c.settings.maxCandidates := by
    rwa [CandidateSet.size, ← hperm.length_eq]
  exact ⟨y.union x, c.outcome_union_eq_ok.2 ⟨hd, ⟨y, x, hy, hx, rfl⟩, hsize'⟩, hperm⟩

/-- Unions may be regrouped.  The set of an inner union is no larger than that of the outer one, so that
neither way hits the bound on the size where the other does not. -/
theorem outcome_union_assoc (h : d + (Query.union (.union p q) r).depth ≤ c.settings.maxDepth)
    (h' : d + (Query.union p (.union q r)).depth ≤ c.settings.maxDepth) :
    c.outcome (.union (.union p q) r) d = .ok s ↔ c.outcome (.union p (.union q r)) d = .ok s := by
  have hleft : d + (Query.union p q).depth ≤ c.settings.maxDepth := by
    rw [Query.depth] at h
    omega
  have hright : d + (Query.union q r).depth ≤ c.settings.maxDepth := by
    rw [Query.depth] at h'
    omega
  rw [c.outcome_union_eq_ok_of_fits h, c.outcome_union_eq_ok_of_fits h']
  constructor
  · rintro ⟨_, z, hxy, hz, rfl, hsize⟩
    obtain ⟨x, y, hx, hy, rfl, -⟩ := (c.outcome_union_eq_ok_of_fits hleft).1 hxy
    rw [CandidateSet.union_assoc] at hsize ⊢
    have hyz := Nat.le_trans (CandidateSet.size_le_union_right x (y.union z)) hsize
    exact ⟨x, y.union z, hx, (c.outcome_union_eq_ok_of_fits hright).2 ⟨y, z, hy, hz, rfl, hyz⟩, rfl,
      hsize⟩
  · rintro ⟨x, _, hx, hyz, rfl, hsize⟩
    obtain ⟨y, z, hy, hz, rfl, -⟩ := (c.outcome_union_eq_ok_of_fits hright).1 hyz
    rw [← CandidateSet.union_assoc] at hsize ⊢
    have hxy := Nat.le_trans (CandidateSet.size_le_union_left (x.union y) z) hsize
    exact ⟨x.union y, z, (c.outcome_union_eq_ok_of_fits hleft).2 ⟨x, y, hx, hy, rfl, hxy⟩, hz, rfl,
      hsize⟩

/-! ### Unions that add nothing -/

theorem outcome_none (hd : d < c.settings.maxDepth) : c.outcome (.root .none) d = .ok ∅ :=
  c.within_eq_ok.2 ⟨hd, rfl, Nat.zero_le _⟩

/-- Branches that together come to what a query comes to are united to that. -/
theorem outcome_union_eq (h : d + (Query.union p q).depth ≤ c.settings.maxDepth)
    (hsame : (do
      let s ← c.outcome p d
      return s.union (← c.outcome q d)) = c.outcome r d) :
    c.outcome (.union p q) d = c.outcome r d := by
  obtain ⟨hp, hq⟩ := c.outcome_branches_of_fits h
  rw [outcome, hp, hq, hsame]
  exact c.within_outcome (c.lt_maxDepth_of_fits h) r

theorem outcome_union_self (h : d + (Query.union p p).depth ≤ c.settings.maxDepth) :
    c.outcome (.union p p) d = c.outcome p d := by
  refine c.outcome_union_eq h ?_
  cases c.outcome p d with
  | error e => rfl
  | ok s    => exact congrArg Except.ok s.union_self

theorem outcome_union_none (h : d + (Query.union p (.root .none)).depth ≤ c.settings.maxDepth) :
    c.outcome (.union p (.root .none)) d = c.outcome p d := by
  refine c.outcome_union_eq h ?_
  rw [c.outcome_none (c.lt_maxDepth_of_fits h)]
  cases c.outcome p d with
  | error e => rfl
  | ok s    => exact congrArg Except.ok s.union_empty

theorem outcome_none_union (h : d + (Query.union (.root .none) p).depth ≤ c.settings.maxDepth) :
    c.outcome (.union (.root .none) p) d = c.outcome p d := by
  refine c.outcome_union_eq h ?_
  rw [c.outcome_none (c.lt_maxDepth_of_fits h)]
  cases c.outcome p d with
  | error e => rfl
  | ok s    => exact congrArg Except.ok s.empty_union

end Context

/-- **Union is a set algebra on queries.**  Under the standard router, whatever the actor, the scene and the
settings are, and whatever the score tables remember: a union is answered either way round, and with the
same members; one that is regrouped is answered with the same members in the same order; and one with
itself or with nothing has the outcome of the query, be it an answer or an error.  Where the nesting
changes, the bound on the depth has to admit both sides. -/
theorem Engine.union_laws (settings : Settings) (scores scores' : ScoreTable) (p q r : Query)
    (actor : EntityId) (scene : Scene) (traced : Bool) :
    let outcome := fun scores q =>
      ((Engine.mk settings .standard scores).ask q actor scene traced).1.outcome
    let admits := fun (q : Query) => q.depth ≤ settings.maxDepth
    ((∀ a, outcome scores (.union p q) = .ok a →
        ∃ a', outcome scores' (.union q p) = .ok a' ∧ a.members.Perm a'.members) ∧
      ∀ a', outcome scores' (.union q p) = .ok a' → ∃ a, outcome scores (.union p q) = .ok a) ∧
    (admits (.union (.union p q) r) → admits (.union p (.union q r)) →
      ∀ a, outcome scores (.union (.union p q) r) = .ok a ↔
        outcome scores' (.union p (.union q r)) = .ok a) ∧
    (admits (.union p p) → outcome scores (.union p p) = outcome scores' p) ∧
    (admits (.union p (.root .none)) → outcome scores (.union p (.root .none)) = outcome scores' p) ∧
    (admits (.union (.root .none) p) → outcome scores (.union (.root .none) p) = outcome scores' p) := by
  intro outcome admits
  let c : Context := { actor, scene, settings, traced, router := .standard }
  have houtcome : ∀ scores q, outcome scores q = (c.outcome q 0).bind Answer.ofSet := fun scores q =>
    (Engine.mk settings .standard scores).ask_outcome rfl q actor scene traced
  have hadmits : ∀ q, admits q → 0 + q.depth ≤ c.settings.maxDepth := by
    intro q hq
    rwa [Nat.zero_add]
  have hcomm : ∀ scores scores' p q a, outcome scores (.union p q) = .ok a →
      ∃ a', outcome scores' (.union q p) = .ok a' ∧ a.members.Perm a'.members := by
    intro scores scores' p q a ha
    rw [houtcome] at ha
    obtain ⟨s, hs, ha⟩ := Attempt.bind_eq_ok.1 ha
    obtain ⟨t, ht, hperm⟩ := c.outcome_union_comm hs
    obtain ⟨a', ha', hmembers⟩ := Answer.ofSet_perm hperm ha
    exact ⟨a', (houtcome _ _).trans (Attempt.bind_eq_ok.2 ⟨t, ht, ha'⟩), hmembers⟩
  refine ⟨⟨hcomm scores scores' p q, fun a' ha' => ?_⟩, fun hleft hright a => ?_, fun h => ?_, fun h => ?_,
    fun h => ?_⟩
  · obtain ⟨a, ha, -⟩ := hcomm scores' scores q p a' ha'
    exact ⟨a, ha⟩
  · rw [houtcome, houtcome]
    have hassoc := fun s => c.outcome_union_assoc (s := s) (hadmits _ hleft) (hadmits _ hright)
    exact Attempt.bind_eq_ok.trans ((exists_congr fun s => and_congr_left' (hassoc s)).trans
      Attempt.bind_eq_ok.symm)
  · rw [houtcome, houtcome, c.outcome_union_self (hadmits _ h)]
  · rw [houtcome, houtcome, c.outcome_union_none (hadmits _ h)]
  · rw [houtcome, houtcome, c.outcome_none_union (hadmits _ h)]

/-- The hero is with friends and a horse, whichever of them is named first and however they are grouped;
and the union of a bare outfit with itself fails as the outfit does. -/
theorem Engine.company_in_any_order :
    let store := ((∅ : Store).insert "hero" "friend" (.arr [.str "squire", .str "page"])).insert
      "hero" "mount" (.str "horse")
    let outcome := fun scores q =>
      ((Engine.mk {} .standard scores).ask q "hero" { world := store.world } false).1.outcome
    let friends : Query := .step "friend" false (.root .actor)
    let mount : Query := .step "mount" false (.root .actor)
    let outfit : Query := .step View.topmost.field false (.root .actor)
    let company : Answer := ⟨[.entity "squire", .entity "page", .entity "horse"]⟩
    (∃ a, outcome default (.union mount friends) = .ok a ∧ company.members.Perm a.members) ∧
    outcome default (.union friends (.union mount friends)) = .ok company ∧
    outcome default (.union friends (.root .none)) = .ok ⟨[.entity "squire", .entity "page"]⟩ ∧
    outcome default (.union outfit outfit) = .error (.unresolvedDescriptor "hero" .topmost) := by
  intro store outcome friends mount outfit company
  have hleft : outcome default (.union friends mount) = .ok company := rfl
  have hregrouped : outcome default (.union (.union friends mount) friends) = .ok company := rfl
  have hfriends : outcome default friends = .ok ⟨[.entity "squire", .entity "page"]⟩ := rfl
  have houtfit : outcome default outfit = .error (.unresolvedDescriptor "hero" .topmost) := rfl
  obtain ⟨⟨hcomm, -⟩, hassoc, -, hnone, -⟩ := union_laws {} default default friends mount friends "hero"
    { world := store.world } false
  obtain ⟨-, -, hself, -, -⟩ := union_laws {} default default outfit mount friends "hero"
    { world := store.world } false
  exact ⟨hcomm company hleft, (hassoc (by decide) (by decide) company).1 hregrouped,
    (hnone (by decide)).trans hfriends, (hself (by decide)).trans houtfit⟩

end EntityQuery
