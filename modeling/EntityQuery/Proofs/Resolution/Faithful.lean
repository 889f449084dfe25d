import EntityQuery.Proofs.Candidate.Union
import EntityQuery.Proofs.Resolution.Descriptors

/-!
# Descriptors are faithful

A descriptor carries the outfit of its owner as the world has it (`Candidate.FaithfulTo`).  Within a query
this is so of all candidates, as descriptors are only made by looking at what somebody wears
(`Context.faithful_of_outcome`); so the owner and the view, which are the key of a descriptor, determine it
(`CandidateSet.consistent_of_faithful`).
-/

namespace EntityQuery

/-- A descriptor has the outfit that its owner has in the world. -/
def Candidate.FaithfulTo (w : World) : Candidate → Prop
  | .descriptor d => w.outfit d.owner = .ok d.outfit
  | _             => True

theorem Candidate.FaithfulTo.eq_of_key_eq {w : World} {c d : Candidate} (hc : c.FaithfulTo w)
    (hd : d.FaithfulTo w) (h : c.key = d.key) : c = d := by
  cases c with
  | entity | value =>
      cases d <;> cases h
      rfl
  | descriptor c   =>
      cases d with
      | entity | value => cases h
      | descriptor d   =>
          obtain ⟨owner, view, outfit⟩ := c
          obtain ⟨owner', view', outfit'⟩ := d
          cases h
          cases hc.symm.trans hd
          rfl

theorem CandidateSet.consistent_of_faithful {w : World} {cs : List Candidate}
    (h : ∀ c ∈ cs, c.FaithfulTo w) : Consistent cs :=
  fun c hc d hd => (h c hc).eq_of_key_eq (h d hd)

namespace Asking

variable (a : Asking)

/-- Whatever a treatment finds is faithful: descriptors are made of outfits that were read. -/
theorem faithful_of_found {u : Treatment} {c d : Candidate} {found : List Candidate}
    (h : a.found u c = .ok found) (hd : d ∈ found) : d.FaithfulTo a.scene.world := by
  cases d with
  | entity | value => trivial
  | descriptor d   => exact (origin_of_found h hd).of_descriptor.2

theorem faithful_of_founds {u : Treatment} {cs : List Candidate} {founds : List (List Candidate)}
    (h : cs.mapM (a.found u) = .ok founds) {d : Candidate} (hd : d ∈ founds.flatten) :
    d.FaithfulTo a.scene.world := by
  obtain ⟨found, hfound, hd⟩ := List.mem_flatten.1 hd
  obtain ⟨c, -, hc⟩ := Attempt.exists_of_mem_mapM h hfound
  exact a.faithful_of_found hc hd

theorem faithful_of_treat {u : Treatment} {s made : CandidateSet} (h : a.treat u s = .ok made)
    {d : Candidate} (hd : d ∈ made.toList) : d.FaithfulTo a.scene.world := by
  obtain ⟨founds, hfounds, rfl⟩ := Attempt.map_eq_ok.1 h
  exact a.faithful_of_founds hfounds (CandidateSet.mem_of_mem_ofList hd)

theorem faithful_of_rootSet {root : Root} {s : CandidateSet} (h : a.rootSet root = .ok s)
    {d : Candidate} (hd : d ∈ s.toList) : d.FaithfulTo a.scene.world := by
  cases d with
  | entity | value => trivial
  | descriptor d   => exact (a.not_holdsDescriptor_of_rootSet h ⟨d, hd⟩).elim

end Asking

/-- **All candidates of a query are faithful**, at each of its nodes. -/
theorem Context.faithful_of_outcome (c : Context) {q : Query} {d : Nat} {s : CandidateSet}
    (h : c.outcome q d = .ok s) {x : Candidate} (hx : x ∈ s.toList) : x.FaithfulTo c.scene.world := by
  induction q generalizing d s x with
  | root root =>
      obtain ⟨-, hmade, -⟩ := c.within_eq_ok.1 h
      exact c.faithful_of_rootSet hmade hx
  | step | filter | flatten =>
      obtain ⟨-, hmade, -⟩ := c.within_eq_ok.1 h
      obtain ⟨p, -, htreat⟩ := Attempt.bind_eq_ok.1 hmade
      exact c.faithful_of_treat htreat hx
  | union left right ihl ihr =>
      obtain ⟨-, ⟨l, r, hl, hr, rfl⟩, -⟩ := c.outcome_union_eq_ok.1 h
      rcases CandidateSet.mem_of_mem_union hx with hx | hx
      · exact ihl hl hx
      · exact ihr hr hx

/-- The owner and the view of a descriptor determine it within a query. -/
theorem Context.consistent_of_outcome (c : Context) {q q' : Query} {d d' : Nat} {s t : CandidateSet}
    (hs : c.outcome q d = .ok s) (ht : c.outcome q' d' = .ok t) :
    CandidateSet.Consistent (s.toList ++ t.toList) := by
  refine CandidateSet.consistent_of_faithful (w := c.scene.world) fun x hx => ?_
  rcases List.mem_append.1 hx with hx | hx
  · exact c.faithful_of_outcome hs hx
  · exact c.faithful_of_outcome ht hx

end EntityQuery
