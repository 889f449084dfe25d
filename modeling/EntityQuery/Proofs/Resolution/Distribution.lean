import EntityQuery.Proofs.Resolution.Faithful
import EntityQuery.World.Store

/-!
# Nodes with one branch and unions

A node with one branch looks at the candidates of the branch one by one.  So under the standard router it
distributes over a union, in the order of the candidates too:

* `Asking.treat_union`: a union is treated as both sets are, and what comes of it is the union of what
  comes of them.
* `Context.unary_distributes`: so it is for queries, within the bounds on depth and size.
-/

namespace EntityQuery

/-- A node with one branch, without the branch. -/
inductive Query.Unary where
  | step (field : String) (isArray : Bool)
  | filter (predicate : Json)
  | flatten
deriving DecidableEq

namespace Query.Unary

/-- The node over a branch. -/
def above : Unary → Query → Query
  | step field isArray, q => .step field isArray q
  | filter predicate,   q => .filter predicate q
  | flatten,            q => .flatten q

/-- What the node does with the candidates of its branch. -/
def treatment : Unary → Treatment
  | step field isArray => .ofStep field isArray
  | filter predicate   => .filter predicate
  | flatten            => .flatten

end Query.Unary

/-! ### Treatments -/

namespace Asking

variable (a : Asking) (u : Treatment)

/-- What a treatment finds in a candidate, nothing where it fails. -/
def finds (c : Candidate) : List Candidate :=
  (a.found u c).toOption.getD []

theorem treat_eq_ok_iff {s made : CandidateSet} :
    a.treat u s = .ok made ↔
      (∀ c ∈ s.toList, ∃ found, a.found u c = .ok found) ∧
        made = .ofList (s.toList.flatMap (a.finds u)) := by
  rw [treat, Attempt.map_eq_ok]
  constructor
  · rintro ⟨founds, hfounds, rfl⟩
    obtain ⟨hall, rfl⟩ := (Attempt.mapM_eq_ok_iff []).1 hfounds
    exact ⟨hall, by rw [List.flatMap_def]; rfl⟩
  · rintro ⟨hall, rfl⟩
    refine ⟨_, (Attempt.mapM_eq_ok_iff []).2 ⟨hall, rfl⟩, ?_⟩
    rw [List.flatMap_def]
    rfl

theorem treat_empty : a.treat u ∅ = .ok ∅ := rfl

variable {u} in
theorem treat_singleton {s : CandidateSet} {x : Candidate} {found : List Candidate} (hs : s.toList = [x])
    (hx : a.found u x = .ok found) : a.treat u s = .ok (.ofList found) := by
  rw [treat, hs, List.mapM_cons, hx]
  exact congrArg (fun cs => Except.ok (CandidateSet.ofList cs)) (List.append_nil found)

/-- **A union is treated as both of its sets are.** -/
theorem treat_union {s t made : CandidateSet}
    (h : CandidateSet.Consistent (s.toList ++ t.toList)) :
    a.treat u (s.union t) = .ok made ↔
      ∃ x y, a.treat u s = .ok x ∧ a.treat u t = .ok y ∧ made = x.union y := by
  simp only [treat_eq_ok_iff, CandidateSet.mem_union_iff h, CandidateSet.ofList_flatMap_union _ h]
  constructor
  · rintro ⟨hall, rfl⟩
    exact ⟨_, _, ⟨fun c hc => hall c (.inl hc), rfl⟩, ⟨fun c hc => hall c (.inr hc), rfl⟩, rfl⟩
  · rintro ⟨x, y, ⟨hs, rfl⟩, ⟨ht, rfl⟩, rfl⟩
    exact ⟨fun c hc => hc.elim (hs c) (ht c), rfl⟩

end Asking

/-! ### Queries -/

namespace Context

variable (c : Context) (u : Query.Unary) {q a b : Query} {d e : Nat} {r m : CandidateSet}

theorem outcome_above_eq_ok :
    c.outcome (u.above q) d = .ok r ↔
      d < c.settings.maxDepth ∧
        (∃ s, c.outcome q (d + 1) = .ok s ∧ c.treat u.treatment s = .ok r) ∧
        r.size ≤ c.settings.maxCandidates := by
  rw [← Attempt.bind_eq_ok, ← within_eq_ok]
  cases u <;> rfl

/-- What is treated in a union is treated in both branches. -/
theorem outcome_union_above (h : c.outcome (u.above (.union a b)) d = .ok r) :
    c.outcome (.union (u.above a) (u.above b)) d = .ok r := by
  obtain ⟨hd, ⟨m, hm, htreat⟩, hsize⟩ := (c.outcome_above_eq_ok u).1 h
  obtain ⟨hd', ⟨s, t, hs, ht, rfl⟩, -⟩ := c.outcome_union_eq_ok.1 hm
  have hconsistent := c.consistent_of_outcome hs ht
  obtain ⟨x, y, hx, hy, rfl⟩ := (c.treat_union u.treatment hconsistent).1 htreat
  -- The sets of the branches are no larger than their union.
  have hxsize := Nat.le_trans (CandidateSet.size_le_union_left x y) hsize
  have hysize := Nat.le_trans (CandidateSet.size_le_union_right x y) hsize
  have hleft := (c.outcome_above_eq_ok u).2 ⟨hd', ⟨s, hs, hx⟩, hxsize⟩
  have hright := (c.outcome_above_eq_ok u).2 ⟨hd', ⟨t, ht, hy⟩, hysize⟩
  exact c.outcome_union_eq_ok.2 ⟨hd, ⟨x, y, hleft, hright, rfl⟩, hsize⟩

/-- What is treated in both branches is treated in their union, if that is not too large. -/
theorem outcome_above_union (h : c.outcome (.union (u.above a) (u.above b)) d = .ok r)
    (hunion : c.outcome (.union a b) e = .ok m) : c.outcome (u.above (.union a b)) d = .ok r := by
  obtain ⟨hd, ⟨x, y, hx, hy, rfl⟩, hsize⟩ := c.outcome_union_eq_ok.1 h
  obtain ⟨hd', ⟨s, hs, hx⟩, -⟩ := (c.outcome_above_eq_ok u).1 hx
  obtain ⟨-, ⟨t, ht, hy⟩, -⟩ := (c.outcome_above_eq_ok u).1 hy
  -- The branches have the sets that they have in the union.
  obtain ⟨-, ⟨s', t', hs', ht', rfl⟩, hmsize⟩ := c.outcome_union_eq_ok.1 hunion
  cases c.outcome_unique hs hs'
  cases c.outcome_unique ht ht'
  have htreat := (c.treat_union u.treatment (c.consistent_of_outcome hs ht)).2 ⟨x, y, hx, hy, rfl⟩
  have hunited := c.outcome_union_eq_ok.2 ⟨hd', ⟨s, t, hs, ht, rfl⟩, hmsize⟩
  exact (c.outcome_above_eq_ok u).2 ⟨hd, ⟨_, hunited, htreat⟩, hsize⟩

theorem outcome_above_none (hd : d + 1 < c.settings.maxDepth) :
    c.outcome (u.above (.root .none)) d = .ok ∅ := by
  have hnone : c.outcome (.root .none) (d + 1) = .ok ∅ :=
    c.within_eq_ok.2 ⟨hd, rfl, Nat.zero_le _⟩
  exact (c.outcome_above_eq_ok u).2
    ⟨Nat.lt_of_succ_lt hd, ⟨∅, hnone, c.treat_empty u.treatment⟩, Nat.zero_le _⟩

/-- **Nodes with one branch distribute over unions.**  Under the standard router, whatever the world, the
actor, the scene and the settings are, and at every depth:

* where the node over a union resolves to a set, the union of the nodes resolves to it, in the same order;
* where the union of the nodes resolves to a set, and the union of the branches resolves at all, the node
  over the union resolves to that set;
* over nothing the node resolves to the empty set, if the bound on the depth admits it. -/
theorem unary_distributes (asking : Asking) (u : Query.Unary) (a b : Query) (d : Nat) (run run' : Run) :
    let c : Context := { toAsking := asking, router := .standard }
    let resolved := fun q d run => (c.resolve q d).result run
    (∀ r, resolved (u.above (.union a b)) d run = .ok r →
      resolved (.union (u.above a) (u.above b)) d run' = .ok r) ∧
    (∀ r m e, resolved (.union (u.above a) (u.above b)) d run = .ok r →
      resolved (.union a b) e run' = .ok m → resolved (u.above (.union a b)) d run' = .ok r) ∧
    (d + 1 < asking.settings.maxDepth → resolved (u.above (.root .none)) d run = .ok ∅) := by
  intro c resolved
  have hresolved : ∀ q d run, resolved q d run = c.outcome q d :=
    fun q d run => (c.resolve_comesTo rfl q d).result_eq run
  simp only [hresolved]
  exact ⟨fun r => c.outcome_union_above u, fun r m e => c.outcome_above_union u, c.outcome_above_none u⟩

/-- The friends of somebody and of his friends: each is named once, where he is met first. -/
theorem friends_distribute :
    let store := ((∅ : Store).insert "hero" "friends" (.arr [.str "squire", .str "page"])).insert
      "squire" "friends" (.arr [.str "page", .str "hero"])
    let asking : Asking := { actor := "hero", scene := { world := store.world } }
    let c : Context := { toAsking := asking, router := .standard }
    let resolved := fun q => (c.resolve q 0).result { scores := default }
    let friends : Query.Unary := .step "friends" true
    let near : Query := friends.above (.root .actor)
    let found : CandidateSet := .ofEntities ["squire", "page", "hero"]
    resolved (.union (.root .actor) near) = .ok (.ofEntities ["hero", "squire", "page"]) ∧
    resolved (friends.above (.union (.root .actor) near)) = .ok found ∧
    resolved (.union near (friends.above near)) = .ok found ∧
    resolved (friends.above (.root .none)) = .ok ∅ := by
  intro store asking c resolved friends near found
  obtain ⟨hapart, htogether, hnone⟩ :=
    unary_distributes asking friends (.root .actor) near 0 { scores := default } { scores := default }
  have hunion : resolved (.union (.root .actor) near) =
      .ok (.ofEntities ["hero", "squire", "page"]) := rfl
  have habove : resolved (friends.above (.union (.root .actor) near)) = .ok found := rfl
  have hbranches := hapart found habove
  exact ⟨hunion, htogether found _ 0 hbranches hunion, hbranches, hnone (by decide)⟩

end Context

end EntityQuery
