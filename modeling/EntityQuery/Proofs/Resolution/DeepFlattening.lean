import EntityQuery.Proofs.Candidate.Leaves
import EntityQuery.Proofs.Resolution.Flattening
import EntityQuery.Proofs.Resolution.Occurrences
import EntityQuery.Proofs.Resolution.Routing

/-!
# Lists flattened again and again

A flattening takes apart the lists among the candidates of its branch, and what doubles there are among
their elements is left out before the next one.  Taken together, the flattenings leave out no more than
one that goes down to the leaves at once:

* `Context.occurrences_iterate_flatten`: without descriptors, what occurs after so many flattenings is what
  lists taken apart as often come to.
* `Context.resolve_flatten`: the set that a flattening makes of the set of its branch.
* `Context.repeated_flattening_comes_to_leaves`: so enough flattenings come to the leaves, and one more to
  the same; and each takes one level off.
-/

namespace EntityQuery

namespace Resolver

/-- Flattenings are the business of one resolver. -/
theorem eq_arrayIteration_of_accepts {β : Type} {r : Resolver} {p : β} (h : r.accepts (.flatten p)) :
    r = arrayIteration := by
  have hkind : Query.Kind.arrayIteration = r.kind := kind_eq_of_accepts h
  cases r with
  | arrayIteration                                   => rfl
  | source | step | filter | union | clothing | slot => cases hkind

end Resolver

theorem Router.resolverFor?_flatten {β : Type} {router : Router} {p : β}
    (h : .arrayIteration ∈ router.resolvers) : router.resolverFor? (.flatten p) = some .arrayIteration := by
  have hsome : (router.resolverFor? (.flatten p)).isSome :=
    List.find?_isSome.2 ⟨.arrayIteration, h, rfl⟩
  obtain ⟨r, hr⟩ := Option.isSome_iff_exists.1 hsome
  rwa [← Resolver.eq_arrayIteration_of_accepts (accepts_of_resolverFor? hr)]

namespace Asking

variable (a : Asking)

theorem treatAll_flatten (cs : List Candidate) :
    a.treatAll .flatten cs = .ok (cs.flatMap a.foundByFlattening) := by
  rw [treatAll, a.mapM_found_flatten, List.flatMap_def]
  rfl

/-- Flattening takes lists apart, and leaves alone what is neither a list nor a descriptor. -/
theorem foundByFlattening_eq_elements {x : Candidate} (hx : ∀ d, x ≠ .descriptor d) :
    a.foundByFlattening x = x.elements := by
  cases x with
  | entity id    => rfl
  | value v      => cases v <;> rfl
  | descriptor d => exact (hx d rfl).elim

theorem flatMap_foundByFlattening {cs : List Candidate} (h : ∀ d, Candidate.descriptor d ∉ cs) :
    cs.flatMap a.foundByFlattening = cs.flatMap Candidate.elements := by
  refine List.flatMap_congr fun x hx => a.foundByFlattening_eq_elements fun d hd => h d ?_
  rwa [← hd]

end Asking

namespace Context

variable {c : Context} {q : Query} {d k : Nat} {run : Run} {s : CandidateSet} {cs ds : List Candidate}

/-! ### Occurrences -/

theorem exists_of_occurrences_flatten (h : c.occurrences (.flatten q) = .ok ds) :
    ∃ cs, c.occurrences q = .ok cs ∧ ds = cs.flatMap c.foundByFlattening := by
  rw [occurrences, occurrencesAt] at h
  split at h
  · cases h
  · rename_i r hr
    obtain rfl := Resolver.eq_arrayIteration_of_accepts (Router.accepts_of_resolverFor? hr)
    obtain ⟨cs, hcs, hds⟩ := Attempt.bind_eq_ok.1 h
    rw [c.treatAll_flatten] at hds
    exact ⟨cs, hcs, (Except.ok.inj hds).symm⟩

/-- **Without descriptors, so many flattenings take lists apart as often.** -/
theorem occurrences_iterate_flatten (hcs : c.occurrences q = .ok cs)
    (hplain : ∀ d, Candidate.descriptor d ∉ cs)
    (hds : c.occurrences (Query.flatten^[k] q) = .ok ds) :
    ds = (List.flatMap Candidate.elements)^[k] cs := by
  induction k generalizing ds with
  | zero      => exact Except.ok.inj (hds.symm.trans hcs)
  | succ k ih =>
      rw [Function.iterate_succ_apply'] at hds ⊢
      obtain ⟨es, hes, rfl⟩ := exists_of_occurrences_flatten hds
      obtain rfl := ih hes
      exact c.flatMap_foundByFlattening fun d => (Candidate.descriptor_mem_iterate_iff k).not.2 (hplain d)

/-! ### Sets -/

theorem lt_maxDepth_of_resolve (h : (c.resolve q d).result run = .ok s) : d < c.settings.maxDepth := by
  by_contra hd
  rw [c.resolve_eq] at h
  cases (c.dispatch_too_deep _ (Nat.le_of_not_lt hd) run).1.symm.trans h

/-- A flattening makes a set of all that it finds in that of its branch, if the set is not too large. -/
theorem resolve_flatten (hrouter : .arrayIteration ∈ c.router.resolvers)
    (h : (c.resolve q (d + 1)).result run = .ok s) (run' : Run) {r : CandidateSet}
    (hr : r = .ofList (s.toList.flatMap c.foundByFlattening))
    (hsize : r.size ≤ c.settings.maxCandidates) :
    (c.resolve (.flatten q) d).result run' = .ok r := by
  obtain ⟨made, hmade, -⟩ := c.resolve_collects q (d + 1)
  obtain rfl : made = .ok s := (hmade.result_eq run).symm.trans h
  have hflattened : Resolving.ComesTo (c.resolve q (d + 1) >>= c.flattened) (.ok r) := by
    rw [hr, ← c.treat_flatten s]
    exact hmade.bind fun parent => c.flattened_comesTo parent
  have hdispatch := c.dispatch_comesTo (Router.resolverFor?_flatten hrouter) hflattened d
  have hwithin : c.within d (.ok r) = .ok r :=
    c.within_eq_ok.2 ⟨Nat.lt_of_succ_lt (lt_maxDepth_of_resolve h), rfl, hsize⟩
  exact (hwithin ▸ hdispatch).result_eq run'

/-- Where no lists are nested, and no descriptors are, flattening changes nothing. -/
theorem resolve_flatten_of_nesting (hrouter : .arrayIteration ∈ c.router.resolvers)
    (h : (c.resolve q (d + 1)).result run = .ok s) (hplain : ∀ x, Candidate.descriptor x ∉ s.toList)
    (hnesting : Candidate.nestingOf s.toList = 0) (run' : Run) :
    (c.resolve (.flatten q) d).result run' = .ok s := by
  refine resolve_flatten hrouter h run' ?_ (size_le_of_resolve h)
  rw [c.flatMap_foundByFlattening hplain, Candidate.flatMap_elements_of_nesting hnesting]
  exact (CandidateSet.empty_union s).symm

/-- The sets after flattenings are made of the occurrences before them, taken apart as often. -/
theorem exists_occurrences_flattened (hs : (c.resolve q d).result run = .ok s)
    (hplain : ∀ x, Candidate.descriptor x ∉ s.toList) :
    ∃ cs, s = .ofList cs ∧ (∀ x, Candidate.descriptor x ∉ cs) ∧
      ∀ (k d' : Nat) (run' : Run) (t : CandidateSet),
        (c.resolve (Query.flatten^[k] q) d').result run' = .ok t →
          t = .ofList ((List.flatMap Candidate.elements)^[k] cs) := by
  obtain ⟨cs, hcs, rfl⟩ := exists_occurrences hs
  have hplain : ∀ x, Candidate.descriptor x ∉ cs := fun x hx =>
    hplain x ((CandidateSet.mem_ofList_iff (c.consistent_of_occurrences hcs)).2 hx)
  refine ⟨cs, rfl, hplain, fun k d' run' t ht => ?_⟩
  obtain ⟨ds, hds, rfl⟩ := exists_occurrences ht
  rw [occurrences_iterate_flatten hcs hplain hds]

/-- **Repeated flattening is deep flattening.**  Let a query resolve to a set without descriptors, whichever
resolvers the router knows, and flatten it some more:

* after as many flattenings as lists are nested in the set, or more, its set has the leaves of all candidates
  of the first set, in order, and of doubles among them the first;
* from then on one more flattening comes to the same set, unless it is too deep;
* and each single flattening takes one level off each list, and leaves all else in its place. -/
theorem repeated_flattening_comes_to_leaves (c : Context) {q : Query} {d : Nat} {run : Run}
    {s : CandidateSet} (hs : (c.resolve q d).result run = .ok s)
    (hplain : ∀ x, Candidate.descriptor x ∉ s.toList) :
    (∀ (k d' : Nat) (run' : Run) (r : CandidateSet), Candidate.nestingOf s.toList ≤ k →
      (c.resolve (Query.flatten^[k] q) d').result run' = .ok r →
        r.toList = (s.toList.flatMap Candidate.leaves).eraseDups) ∧
    (∀ (k d' : Nat) (run' run'' : Run) (r : CandidateSet), Candidate.nestingOf s.toList ≤ k →
      .arrayIteration ∈ c.router.resolvers →
      (c.resolve (Query.flatten^[k] q) (d' + 1)).result run' = .ok r →
        (c.resolve (Query.flatten^[k + 1] q) d').result run'' = .ok r) ∧
    ∀ (k d' d'' : Nat) (run' run'' : Run) (t r : CandidateSet),
      (c.resolve (Query.flatten^[k] q) d').result run' = .ok t →
      (c.resolve (Query.flatten^[k + 1] q) d'').result run'' = .ok r →
        r.toList = (t.toList.flatMap Candidate.elements).eraseDups ∧
        ∀ x ∈ t.toList,
          (∀ vs, x = .value (.arr vs) → Candidate.nestingOf x.elements + 1 = x.nesting) ∧
          ((∀ vs, x ≠ .value (.arr vs)) → x.elements = [x]) := by
  obtain ⟨cs, rfl, hcs, hsets⟩ := exists_occurrences_flattened hs hplain
  have hconsistent := CandidateSet.consistent_iterate_elements hcs
  have hnesting := CandidateSet.nestingOf_ofList_iterate hcs
  have hdepth : Candidate.nestingOf (CandidateSet.ofList cs).toList = Candidate.nestingOf cs := hnesting 0
  refine ⟨fun k d' run' r hk hr => ?_, fun k d' run' run'' r hk hrouter hr => ?_,
    fun k d' d'' run' run'' t r ht hr => ⟨?_, fun x _ => ⟨?_, fun hx => ?_⟩⟩⟩
  · have hleaves : (List.flatMap Candidate.elements)^[k] cs = cs.flatMap Candidate.leaves :=
      Candidate.iterate_elements (hdepth ▸ hk)
    rw [hsets k d' run' r hr, hleaves]
    exact CandidateSet.toList_ofList_flatMap (hconsistent 0) (hleaves ▸ hconsistent k)
  · rw [Function.iterate_succ_apply']
    obtain rfl := hsets k (d' + 1) run' r hr
    refine resolve_flatten_of_nesting hrouter hr (fun x hx => ?_) ?_ run''
    · exact hcs x ((Candidate.descriptor_mem_iterate_iff k).1 (CandidateSet.mem_of_mem_ofList hx))
    · rw [hnesting]
      omega
  · have hnext : (List.flatMap Candidate.elements)^[k + 1] cs =
        ((List.flatMap Candidate.elements)^[k] cs).flatMap Candidate.elements :=
      Function.iterate_succ_apply' ..
    rw [hsets k d' run' t ht, hsets (k + 1) d'' run'' r hr, hnext]
    exact CandidateSet.toList_ofList_flatMap (hconsistent k) (hnext ▸ hconsistent (k + 1))
  · rintro vs rfl
    rw [Candidate.nestingOf_elements]
    rfl
  · exact Candidate.elements_of_nesting (Candidate.nesting_eq_zero_iff.2 hx)

/-- The hero's chest, in which there are boxes with boxes in them, and what is no box. -/
def packedChest : Store :=
  (∅ : Store).insert "hero" "chest"
    (.arr [.arr [.str "gem", .arr [.str "ring", .null, .str "coin"]], .arr [.str "coin"], .null,
      .arr [], .ofNat 4])

/-- Flattened twice the chest has what is in its boxes, and the coin where the first of the two was packed;
flattened once more it has the same. -/
theorem chest_is_unpacked_in_two_steps :
    let c : Context := { actor := "hero", scene := { world := packedChest.world } }
    let chest : Query := .step "chest" false (.root .actor)
    let result := fun q d => (c.resolve q d).result { scores := default }
    let inner : Candidate := .value (.arr [.str "ring", .null, .str "coin"])
    let outer : Candidate := .value (.arr [.str "gem", .arr [.str "ring", .null, .str "coin"]])
    let packed := CandidateSet.ofList
      [outer, .value (.arr [.str "coin"]), .value (.arr []), .value (.ofNat 4)]
    let half := CandidateSet.ofList [.entity "gem", inner, .entity "coin", .value (.ofNat 4)]
    let unpacked := CandidateSet.ofList
      [.entity "gem", .entity "ring", .entity "coin", .value (.ofNat 4)]
    result chest 0 = .ok packed ∧ (∀ x, Candidate.descriptor x ∉ packed.toList) ∧
    Candidate.nestingOf packed.toList = 2 ∧
    result (.flatten chest) 0 = .ok half ∧
    half.toList = (packed.toList.flatMap Candidate.elements).eraseDups ∧
    result (.flatten (.flatten chest)) 1 = .ok unpacked ∧
    unpacked.toList = (packed.toList.flatMap Candidate.leaves).eraseDups ∧
    result (.flatten (.flatten (.flatten chest))) 0 = .ok unpacked := by
  intro c chest result inner outer packed half unpacked
  have hpacked : result chest 0 = .ok packed := by decide +kernel
  have hhalf : result (.flatten chest) 0 = .ok half := by decide +kernel
  have hunpacked : result (.flatten (.flatten chest)) 1 = .ok unpacked := by decide +kernel
  have hplain : ∀ x, Candidate.descriptor x ∉ packed.toList := by
    intro x hx
    have hmem := CandidateSet.mem_of_mem_ofList hx
    simp [outer] at hmem
  have hnesting : Candidate.nestingOf packed.toList = 2 := by decide +kernel
  obtain ⟨hleaves, hstays, hsingle⟩ := repeated_flattening_comes_to_leaves c hpacked hplain
  exact ⟨hpacked, hplain, hnesting, hhalf, (hsingle 0 0 0 _ _ packed half hpacked hhalf).1, hunpacked,
    hleaves 2 1 _ unpacked hnesting.le hunpacked,
    hstays 2 0 _ _ unpacked hnesting.le (by decide) hunpacked⟩

end Context

end EntityQuery
