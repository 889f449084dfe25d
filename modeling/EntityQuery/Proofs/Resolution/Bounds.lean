import EntityQuery.Proofs.Resolution.Chronicle
import EntityQuery.World.Store

/-!
# Bounds on depth and size

How deep a query may nest and how large sets may grow only decides whether there is an answer, not what
it is.

* `Context.between_withBounds`: with wider bounds, a query is resolved in the same way, up to where it hits
  one of the narrower bounds.
* `Context.ResolvesTo.size_le`: the set of each node is within the bound on the size.
* `Engine.raised_bounds`: so wider bounds never change an answer, and what is within narrow bounds is so
  throughout.
-/

namespace EntityQuery

open Attire (ScoreTable)

/-- The error tells that a bound was hit. -/
def QueryError.IsBound (e : QueryError) : Prop :=
  (∃ limit, e = .depthExceeded limit) ∨ ∃ count limit, e = .tooManyCandidates count limit

/-! ### Wider bounds -/

/-- The settings, but for the bounds. -/
def Settings.withBounds (s : Settings) (depth candidates : Nat) : Settings :=
  { s with maxDepth := depth, maxCandidates := candidates }

/-- What holds throughout a resolution, but for the bounds. -/
def Context.withBounds (c : Context) (depth candidates : Nat) : Context :=
  { c with settings := c.settings.withBounds depth candidates }

/-- Parts that tell the same, unless the first of them hits a bound. -/
def Comparison.unbounding : Comparison :=
  agreeing QueryError.IsBound (fun _ => True) fun _ _ => trivial

namespace Context

variable (c : Context) {depth candidates : Nat}

theorem boundDepth_unbounding (h : c.settings.maxDepth ≤ depth) (d : Nat) :
    Comparison.unbounding.Holds (c.boundDepth d) ((c.withBounds depth candidates).boundDepth d) := by
  by_cases hd : c.settings.maxDepth ≤ d
  · rw [boundDepth, if_pos hd]
    exact ⟨_, _, .throw _, .inl ⟨_, rfl, .inl ⟨_, rfl⟩⟩⟩
  · have hd' : ¬ depth ≤ d := fun hle => hd (Nat.le_trans h hle)
    have hraised : (c.withBounds depth candidates).boundDepth d = pure () := if_neg hd'
    rw [hraised, boundDepth, if_neg hd]
    exact Comparison.unbounding.pure ()

theorem boundSize_unbounding (h : c.settings.maxCandidates ≤ candidates) (s : CandidateSet) :
    Comparison.unbounding.Holds (c.boundSize s) ((c.withBounds depth candidates).boundSize s) := by
  by_cases hs : c.settings.maxCandidates < s.size
  · rw [boundSize, if_pos hs]
    exact ⟨_, _, .bind_error (.throw _) _, .inl ⟨_, rfl, .inr ⟨_, _, rfl⟩⟩⟩
  · have hs' : ¬ candidates < s.size := fun hlt => hs (Nat.lt_of_le_of_lt h hlt)
    have hraised : (c.withBounds depth candidates).boundSize s = pure s := if_neg hs'
    have hbound : c.boundSize s = pure s := if_neg hs
    rw [hraised, hbound]
    exact Comparison.unbounding.pure s

/-- No other part of a resolution asks for the bounds. -/
theorem between_withBounds (hdepth : c.settings.maxDepth ≤ depth)
    (hcandidates : c.settings.maxCandidates ≤ candidates) :
    Comparison.unbounding.Between c (c.withBounds depth candidates) where
  toAlike := Comparison.agreeing_alike c.toAsking rfl rfl
  router := rfl
  depth := c.boundDepth_unbounding hdepth
  size := c.boundSize_unbounding hcandidates

/-! ### Sets within the bounds -/

variable {c}

/-- What a dispatch makes, from whichever run, is within the bound on the size. -/
theorem size_le_of_dispatch {d : Nat} {n : Query.Node (Resolving CandidateSet)} {run : Run}
    {s : CandidateSet} (h : (c.dispatch d n).result run = .ok s) : s.size ≤ c.settings.maxCandidates := by
  rw [dispatch_eq] at h
  obtain ⟨-, -, h⟩ := Resolving.exists_of_bind_result_eq_ok h
  unfold route at h
  cases hr : c.router.resolverFor? n with
  | none   =>
      rw [hr] at h
      cases h
  | some r =>
      rw [hr] at h
      obtain ⟨-, -, h⟩ := Resolving.exists_of_bind_result_eq_ok h
      obtain ⟨made, -, h⟩ := Resolving.exists_of_bind_result_eq_ok h
      unfold boundSize at h
      split at h
      · cases h
      · rename_i hsize
        cases h
        exact Nat.le_of_not_lt hsize

theorem size_le_of_resolve {q : Query} {d : Nat} {run : Run} {s : CandidateSet}
    (h : (c.resolve q d).result run = .ok s) : s.size ≤ c.settings.maxCandidates := by
  rw [c.resolve_eq] at h
  exact size_le_of_dispatch h

theorem ResolvesTo.size_le {p : Query.Place} {s : CandidateSet} (h : c.ResolvesTo p s) (run : Run) :
    s.size ≤ c.settings.maxCandidates :=
  size_le_of_resolve (h.result_eq run)

end Context

/-- **Wider bounds never change an answer.**  Unless a query hits one of the bounds of an engine, the report
on it is the same under bounds that are at least as wide, whatever the score tables remember.  And if a
query is answered, the sets of all its nodes and the answer are within the bound on the size. -/
theorem Engine.raised_bounds (e : Engine) (scores : ScoreTable) (q : Query) (actor : EntityId)
    (scene : Scene) (traced : Bool) (depth candidates : Nat) (hdepth : e.settings.maxDepth ≤ depth)
    (hcandidates : e.settings.maxCandidates ≤ candidates) :
    let raised : Engine := { e with settings := e.settings.withBounds depth candidates, scores }
    let report := (e.ask q actor scene traced).1
    let report' := (raised.ask q actor scene traced).1
    ((∀ err, report.outcome = .error err → ¬ err.IsBound) → report'.account = report.account) ∧
    ∀ answer, report.outcome = .ok answer →
      answer.size ≤ e.settings.maxCandidates ∧
      ∀ p ∈ q.places 0, ∃ s, (e.context actor scene traced).ResolvesTo p s ∧
        s.size ≤ e.settings.maxCandidates := by
  intro raised report report'
  let c := e.context actor scene traced
  have hbetween : Comparison.unbounding.Between c (c.withBounds depth candidates) :=
    c.between_withBounds hdepth hcandidates
  obtain ⟨r, t, hr, hraised⟩ := hbetween.resolve q 0
  have haccount : report.account = { outcome := r.bind Answer.ofSet, trace := t } := e.ask_account hr
  have houtcome : report.outcome = r.bind Answer.ofSet := congrArg Account.outcome haccount
  constructor
  · intro hnot
    rcases hraised with ⟨err, rfl, hbound⟩ | ⟨-, hr'⟩
    · exact (hnot err houtcome hbound).elim
    · exact (raised.ask_account hr').trans haccount.symm
  · intro answer hanswer
    obtain ⟨s, rfl, hs⟩ := Attempt.bind_eq_ok.1 (houtcome.symm.trans hanswer)
    have htop : c.ResolvesTo ⟨q, 0⟩ s := ⟨t, hr⟩
    refine ⟨(Answer.size_of_ofSet hs).symm ▸ htop.size_le e.begin, fun p hp => ?_⟩
    obtain ⟨s', hs'⟩ := e.resolves_places q actor scene traced htop p hp
    exact ⟨s', hs', hs'.size_le e.begin⟩

/-- Two friends are just within the bounds, and wider bounds change nothing; their aides are too deep, and
wider bounds let them be found. -/
theorem Engine.friends_within_bounds :
    let store := (((∅ : Store).insert "hero" "friend" (.arr [.str "squire", .str "page"])).insert
      "squire" "aide" (.str "groom")).insert "page" "aide" (.str "maid")
    let narrow : Engine := .new { maxDepth := 2, maxCandidates := 2 } .standard
    let wide : Engine := .new { maxDepth := 3, maxCandidates := 9 } .standard
    let report := fun (e : Engine) q => (e.ask q "hero" { world := store.world } true).1
    let friends : Query := .step "friend" false (.root .actor)
    (report narrow friends).outcome = .ok ⟨[.entity "squire", .entity "page"]⟩ ∧
    (report wide friends).account = (report narrow friends).account ∧
    (∀ p ∈ friends.places 0, ∃ s,
      (narrow.context "hero" { world := store.world } true).ResolvesTo p s ∧ s.size ≤ 2) ∧
    (report narrow (.step "aide" false friends)).outcome = .error (.depthExceeded 2) ∧
    (report wide (.step "aide" false friends)).outcome = .ok ⟨[.entity "groom", .entity "maid"]⟩ := by
  intro store narrow wide report friends
  have hfriends : (report narrow friends).outcome = .ok ⟨[.entity "squire", .entity "page"]⟩ := rfl
  obtain ⟨hsame, hwithin⟩ := narrow.raised_bounds wide.scores friends "hero" { world := store.world }
    true 3 9 (by decide) (by decide)
  refine ⟨hfriends, hsame fun err h => ?_, (hwithin _ hfriends).2, rfl, rfl⟩
  cases hfriends.symm.trans h

end EntityQuery
