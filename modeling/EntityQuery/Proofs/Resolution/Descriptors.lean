import EntityQuery.Proofs.Candidate.Members
import EntityQuery.Proofs.Engine.Account
import EntityQuery.Proofs.Query.Discipline
import EntityQuery.Proofs.Resolution.Origin
import EntityQuery.Proofs.Resolution.Outcome

/-!
# Where descriptors go

The shape of a query decides what becomes of descriptors on the way to its answer:

* `Context.leavesDescriptors_of_outcome`: only a query whose shape leaves descriptors comes to a set with
  one.
* `Context.outcome_ne_unresolved`: a query in which none can arrive at a node that refuses it never ends
  in an unresolved descriptor.
* `Context.outcome_eq_error_of_refuses`, `Answer.ofSet_eq_error`: a descriptor that does arrive there, or
  in the answer, is an error.

`Engine.descriptor_discipline` says this of the engine.
-/

namespace EntityQuery

open Attire (BodySlot ScoreTable View)

/-- Whether a descriptor is in the set. -/
def CandidateSet.HoldsDescriptor (s : CandidateSet) : Prop :=
  ∃ d, Candidate.descriptor d ∈ s.toList

/-! ### Treatments and descriptors -/

/-- The treatments that have no use for a descriptor. -/
def Treatment.Refuses : Treatment → Prop
  | .field _  => True
  | .view _ _ => True
  | .filter _ => True
  | .slot _   => False
  | .flatten  => False

theorem Treatment.refuses_ofStep (field : String) (isArray : Bool) (parent : Query) :
    (Treatment.ofStep field isArray).Refuses ↔ (Query.step field isArray parent).Refuses := by
  unfold Treatment.ofStep
  cases hview : View.ofField? field with
  | some view => simp [Treatment.Refuses, Query.Refuses, hview]
  | none      =>
      cases hslot : BodySlot.ofName? field with
      | some slot => simp [Treatment.Refuses, Query.Refuses, hview, hslot]
      | none      => simp [Treatment.Refuses, Query.Refuses, hslot]

theorem Treatment.ofStep_eq_view {field : String} {isArray b : Bool} {view : View}
    (h : Treatment.ofStep field isArray = .view view b) :
    View.ofField? field = some view ∧ isArray = b := by
  unfold Treatment.ofStep at h
  cases hview : View.ofField? field with
  | some v =>
      rw [hview] at h
      cases h
      exact ⟨rfl, rfl⟩
  | none =>
      cases hslot : BodySlot.ofName? field <;> simp [hview, hslot] at h

theorem Candidate.not_descriptor_of_mem_entities {ids : List EntityId} {d : Descriptor} :
    Candidate.descriptor d ∉ ids.map Candidate.entity := by
  intro h
  obtain ⟨_, -, ⟨⟩⟩ := List.mem_map.1 h

namespace Asking

variable (a : Asking)

/-- Only a scalar step to a view finds descriptors. -/
theorem view_of_found_descriptor {t : Treatment} {c : Candidate} {found : List Candidate}
    (h : a.found t c = .ok found) {d : Descriptor} (hd : .descriptor d ∈ found) :
    ∃ view, t = .view view false :=
  ⟨d.view, (origin_of_found h hd).of_descriptor.1⟩

/-- What refuses descriptors makes an error of each. -/
theorem found_of_refuses {t : Treatment} (ht : t.Refuses) (d : Descriptor) :
    a.found t (.descriptor d) = .error (.unresolvedDescriptor d.owner d.view) := by
  cases t with
  | field | view | filter => rfl
  | slot | flatten        => cases ht

theorem foundInField_ne_unresolved (field : String) {c : Candidate} (hc : ∀ d, c ≠ .descriptor d)
    (owner : EntityId) (view : View) :
    a.foundInField field c ≠ .error (.unresolvedDescriptor owner view) := by
  intro h
  have h := Attempt.map_eq_error.1 h
  cases c with
  | entity id    => obtain ⟨fault, -, ⟨⟩⟩ := Attempt.mapError_eq_error.1 h
  | value v      => cases h
  | descriptor d => exact hc d rfl

theorem foundInView_ne_unresolved (v : View) (isArray : Bool) {c : Candidate}
    (hc : ∀ d, c ≠ .descriptor d) (owner : EntityId) (view : View) :
    a.foundInView v isArray c ≠ .error (.unresolvedDescriptor owner view) := by
  cases c with
  | entity id =>
      intro h
      obtain ⟨fault, -, ⟨⟩⟩ := Attempt.mapError_eq_error.1 (Attempt.map_eq_error.1 h)
  | value v      => nofun
  | descriptor d => exact (hc d rfl).elim

theorem foundByFilter_ne_unresolved (predicate : Json) {c : Candidate}
    (hc : ∀ d, c ≠ .descriptor d) (owner : EntityId) (view : View) :
    a.foundByFilter predicate c ≠ .error (.unresolvedDescriptor owner view) := by
  unfold foundByFilter
  split
  · exact (hc _ rfl).elim
  · split
    · nofun
    · nofun
    · split <;> nofun

/-- An unresolved descriptor comes from a descriptor, where it is refused. -/
theorem refuses_of_found_eq_error {t : Treatment} {c : Candidate} {owner : EntityId} {view : View}
    (h : a.found t c = .error (.unresolvedDescriptor owner view)) :
    t.Refuses ∧ ∃ d, c = .descriptor d := by
  by_cases hc : ∃ d, c = .descriptor d
  · refine ⟨?_, hc⟩
    obtain ⟨d, rfl⟩ := hc
    cases t with
    | field | view | filter => trivial
    | slot | flatten        => cases h
  · exfalso
    have hc : ∀ d, c ≠ .descriptor d := fun d hd => hc ⟨d, hd⟩
    cases t with
    | field name        => exact a.foundInField_ne_unresolved name hc owner view h
    | view v isArray    => exact a.foundInView_ne_unresolved v isArray hc owner view h
    | filter predicate  => exact a.foundByFilter_ne_unresolved predicate hc owner view h
    | flatten           => cases h
    | slot slot         =>
        cases c with
        | entity | value => exact a.foundInField_ne_unresolved slot.name hc owner view h
        | descriptor d   => exact hc d rfl

theorem not_holdsDescriptor_of_rootSet {root : Root} {s : CandidateSet} (h : a.rootSet root = .ok s) :
    ¬ s.HoldsDescriptor := by
  have hids : ∀ ids, ¬ (CandidateSet.ofEntities ids).HoldsDescriptor :=
    fun ids ⟨_, hd⟩ => Candidate.not_descriptor_of_mem_entities (CandidateSet.mem_of_mem_ofList hd)
  cases root with
  | entities component =>
      obtain ⟨ids, -, rfl⟩ := Attempt.map_eq_ok.1 h
      exact hids ids
  | actor    => cases h; exact hids _
  | location => cases h; exact hids _
  | none     => cases h; exact hids []

theorem view_of_treat_holdsDescriptor {t : Treatment} {s made : CandidateSet}
    (h : a.treat t s = .ok made) (hmade : made.HoldsDescriptor) : ∃ view, t = .view view false := by
  obtain ⟨founds, hfounds, rfl⟩ := Attempt.map_eq_ok.1 h
  obtain ⟨d, hd⟩ := hmade
  obtain ⟨found, hfound, hd⟩ := List.mem_flatten.1 (CandidateSet.mem_of_mem_ofList hd)
  obtain ⟨c, -, hc⟩ := Attempt.exists_of_mem_mapM hfounds hfound
  exact a.view_of_found_descriptor hc hd

theorem refuses_of_treat_eq_error {t : Treatment} {s : CandidateSet} {owner : EntityId}
    {view : View} (h : a.treat t s = .error (.unresolvedDescriptor owner view)) :
    t.Refuses ∧ s.HoldsDescriptor := by
  obtain ⟨c, hmem, hc⟩ := Attempt.exists_of_mapM_eq_error (Attempt.map_eq_error.1 h)
  obtain ⟨ht, d, rfl⟩ := a.refuses_of_found_eq_error hc
  exact ⟨ht, d, hmem⟩

/-- Whatever stands before it, a descriptor that is refused leaves no result. -/
theorem treat_eq_error_of_refuses {t : Treatment} (ht : t.Refuses) {s : CandidateSet}
    (hs : s.HoldsDescriptor) : ∃ e, a.treat t s = .error e := by
  obtain ⟨d, hd⟩ := hs
  obtain ⟨e, he⟩ := Attempt.mapM_eq_error_of_mem hd (a.found_of_refuses ht d)
  exact ⟨e, Attempt.map_eq_error.2 he⟩

end Asking

/-! ### Answers and descriptors -/

namespace Answer

theorem ofSet_eq_error {s : CandidateSet} (hs : s.HoldsDescriptor) : ∃ e, ofSet s = .error e := by
  obtain ⟨d, hd⟩ := hs
  obtain ⟨e, he⟩ := Attempt.mapM_eq_error_of_mem (f := Member.ofCandidate) hd rfl
  exact ⟨e, Attempt.map_eq_error.2 he⟩

theorem holdsDescriptor_of_ofSet_eq_error {s : CandidateSet} {e : QueryError}
    (h : ofSet s = .error e) : s.HoldsDescriptor := by
  obtain ⟨d, hmem, -⟩ := exists_of_ofSet_eq_error h
  exact ⟨d, hmem⟩

end Answer

/-! ### Queries and descriptors -/

namespace Context

variable (c : Context)

/-- **Only a shape that leaves descriptors comes to a set with one.** -/
theorem leavesDescriptors_of_outcome {q : Query} {d : Nat} {s : CandidateSet}
    (h : c.outcome q d = .ok s) (hs : s.HoldsDescriptor) : q.LeavesDescriptors := by
  -- Only a union hands on what its branches hold; all others make their sets anew.
  induction q generalizing d s with
  | root root =>
      obtain ⟨-, hmade, -⟩ := c.within_eq_ok.1 h
      exact (c.not_holdsDescriptor_of_rootSet hmade hs).elim
  | step field isArray parent =>
      obtain ⟨-, hmade, -⟩ := c.within_eq_ok.1 h
      obtain ⟨p, -, htreat⟩ := Attempt.bind_eq_ok.1 hmade
      obtain ⟨view, hview⟩ := c.view_of_treat_holdsDescriptor htreat hs
      obtain ⟨hfield, rfl⟩ := Treatment.ofStep_eq_view hview
      exact ⟨Option.isSome_of_eq_some hfield, rfl⟩
  | filter predicate parent =>
      obtain ⟨-, hmade, -⟩ := c.within_eq_ok.1 h
      obtain ⟨p, -, htreat⟩ := Attempt.bind_eq_ok.1 hmade
      obtain ⟨_, ⟨⟩⟩ := c.view_of_treat_holdsDescriptor htreat hs
  | union left right ihl ihr =>
      obtain ⟨-, hmade, -⟩ := c.within_eq_ok.1 h
      obtain ⟨l, hl, hmade⟩ := Attempt.bind_eq_ok.1 hmade
      obtain ⟨r, hr, hmade⟩ := Attempt.bind_eq_ok.1 hmade
      cases hmade
      obtain ⟨x, hx⟩ := hs
      rcases CandidateSet.mem_of_mem_union hx with hx | hx
      · exact .inl (ihl hl ⟨x, hx⟩)
      · exact .inr (ihr hr ⟨x, hx⟩)
  | flatten parent =>
      obtain ⟨-, hmade, -⟩ := c.within_eq_ok.1 h
      obtain ⟨p, -, htreat⟩ := Attempt.bind_eq_ok.1 hmade
      obtain ⟨_, ⟨⟩⟩ := c.view_of_treat_holdsDescriptor htreat hs

/-- A treated branch ends in no unresolved descriptor, if the branch itself does not, and leaves none
where they are refused. -/
theorem treated_ne_unresolved {p : Query} {d : Nat} {t : Treatment} {owner : EntityId} {view : View}
    (hp : c.outcome p d ≠ .error (.unresolvedDescriptor owner view))
    (ht : t.Refuses → ¬ p.LeavesDescriptors) :
    (c.outcome p d >>= c.treat t) ≠ .error (.unresolvedDescriptor owner view) := by
  intro h
  rcases Attempt.bind_eq_error.1 h with h | ⟨s, hs, h⟩
  · exact hp h
  · -- The descriptor it is about was in the set of the branch.
    obtain ⟨hrefuses, hholds⟩ := c.refuses_of_treat_eq_error h
    exact ht hrefuses (c.leavesDescriptors_of_outcome hs hholds)

theorem within_ne_unresolved {d : Nat} {r : Except QueryError CandidateSet} {owner : EntityId}
    {view : View} (hr : r ≠ .error (.unresolvedDescriptor owner view)) :
    c.within d r ≠ .error (.unresolvedDescriptor owner view) := by
  intro h
  rcases c.within_eq_error h with ⟨⟨⟩⟩ | ⟨_, ⟨⟩⟩ | h
  exact hr h

/-- **A disciplined query never ends in an unresolved descriptor.** -/
theorem outcome_ne_unresolved {q : Query} (hq : q.Disciplined) (d : Nat) (owner : EntityId)
    (view : View) : c.outcome q d ≠ .error (.unresolvedDescriptor owner view) := by
  induction q generalizing d with
  | root root =>
      refine c.within_ne_unresolved fun h => ?_
      cases root with
      | entities component =>
          obtain ⟨_, -, ⟨⟩⟩ := Attempt.mapError_eq_error.1 (Attempt.map_eq_error.1 h)
      | actor | location | none => cases h
  | step field isArray parent ih =>
      obtain ⟨hrefuses, hparent⟩ := hq
      refine c.within_ne_unresolved (c.treated_ne_unresolved (ih hparent (d + 1)) fun ht => ?_)
      exact hrefuses ((Treatment.refuses_ofStep field isArray parent).1 ht)
  | filter predicate parent ih =>
      obtain ⟨hrefuses, hparent⟩ := hq
      exact c.within_ne_unresolved (c.treated_ne_unresolved (ih hparent (d + 1)) hrefuses)
  | flatten parent ih =>
      exact c.within_ne_unresolved (c.treated_ne_unresolved (ih hq (d + 1)) False.elim)
  | union left right ihl ihr =>
      obtain ⟨hleft, hright⟩ := hq
      refine c.within_ne_unresolved fun h => ?_
      rcases Attempt.bind_eq_error.1 h with h | ⟨l, -, h⟩
      · exact ihl hleft (d + 1) h
      · rcases Attempt.bind_eq_error.1 h with h | ⟨r, -, ⟨⟩⟩
        exact ihr hright (d + 1) h

/-- **A descriptor that arrives where it is refused is an error.** -/
theorem outcome_eq_error_of_refuses {q p : Query} (hp : q.parent? = some p) (hq : q.Refuses) {d : Nat}
    {s : CandidateSet} (h : c.outcome p (d + 1) = .ok s) (hs : s.HoldsDescriptor) :
    ∃ e, c.outcome q d = .error e := by
  -- Within the bounds the error may become another one, but no result.
  have htreat : ∀ t : Treatment, t.Refuses →
      ∃ e, c.within d (c.outcome p (d + 1) >>= c.treat t) = .error e := by
    intro t ht
    obtain ⟨e, he⟩ := c.treat_eq_error_of_refuses ht hs
    cases hw : c.within d (c.outcome p (d + 1) >>= c.treat t) with
    | error e' => exact ⟨e', rfl⟩
    | ok made  =>
        obtain ⟨-, hmade, -⟩ := c.within_eq_ok.1 hw
        rw [h] at hmade
        exact nomatch he.symm.trans hmade
  cases q with
  | step field isArray parent =>
      cases hp
      exact htreat _ ((Treatment.refuses_ofStep field isArray p).2 hq)
  | filter predicate parent =>
      cases hp
      exact htreat _ trivial
  | root | union | flatten => cases hq

end Context

/-- **The discipline of descriptors.**  Under the standard router, whatever the world, the actor, the
scene, the settings and the score table are:

* a query resolves to a set with a descriptor only if its shape leaves descriptors;
* a well-formed query never ends in an unresolved descriptor;
* where the branch of a node that refuses descriptors resolves to a set with one, the node ends in an
  error;
* where a query resolves to a set with one, there is no answer. -/
theorem Engine.descriptor_discipline (settings : Settings) (scores : ScoreTable) (actor : EntityId)
    (scene : Scene) (traced : Bool) :
    let e : Engine := { settings, router := .standard, scores }
    let c := e.context actor scene traced
    (∀ (q : Query) (d : Nat) (run : Run) (s : CandidateSet),
      (c.resolve q d).result run = .ok s → s.HoldsDescriptor → q.LeavesDescriptors) ∧
    (∀ q : Query, q.WellFormed → ∀ owner view,
      (e.ask q actor scene traced).1.outcome ≠ .error (.unresolvedDescriptor owner view)) ∧
    (∀ q p : Query, q.parent? = some p → q.Refuses →
      ∀ (d : Nat) (run run' : Run) (s : CandidateSet),
        (c.resolve p (d + 1)).result run = .ok s → s.HoldsDescriptor →
          ∃ err, (c.resolve q d).result run' = .error err) ∧
    (∀ (q : Query) (run : Run) (s : CandidateSet),
      (c.resolve q 0).result run = .ok s → s.HoldsDescriptor →
        ∃ err, (e.ask q actor scene traced).1.outcome = .error err) := by
  intro e c
  have hresult : ∀ q d run, (c.resolve q d).result run = c.outcome q d :=
    fun q d run => (c.resolve_comesTo rfl q d).result_eq run
  have hask : ∀ q, (e.ask q actor scene traced).1.outcome = (c.outcome q 0).bind Answer.ofSet :=
    fun q => e.ask_outcome rfl q actor scene traced
  refine ⟨?_, ?_, ?_, ?_⟩
  · intro q d run s h hs
    rw [hresult] at h
    exact c.leavesDescriptors_of_outcome h hs
  · intro q hq owner view h
    rw [hask] at h
    rcases Attempt.bind_eq_error.1 h with h | ⟨s, hs, h⟩
    · exact c.outcome_ne_unresolved hq.disciplined 0 owner view h
    · exact hq.answers (c.leavesDescriptors_of_outcome hs (Answer.holdsDescriptor_of_ofSet_eq_error h))
  · intro q p hp hq d run run' s h hs
    rw [hresult] at h ⊢
    exact c.outcome_eq_error_of_refuses hp hq h hs
  · intro q run s h hs
    rw [hresult] at h
    rw [hask, h]
    exact Answer.ofSet_eq_error hs

/-- A world in which nobody has anything. -/
def World.bare : World where
  component? _ _ := .ok none
  has _ _ := .ok false
  holders _ := .ok []

/-- Even who wears nothing has a descriptor, and a filter refuses it. -/
theorem Engine.filter_refuses_bare_descriptor :
    let c := (Engine.new {} .standard).context "hero" { world := .bare } false
    let outfit : Query := .step "topmost_clothing" false (.root .actor)
    (∃ s, (c.resolve outfit 1).result { scores := default } = .ok s ∧ s.HoldsDescriptor) ∧
    ∃ err, (c.resolve (.filter (.bool true) outfit) 0).result { scores := default } = .error err := by
  intro c outfit
  obtain ⟨-, -, hrefused, -⟩ := Engine.descriptor_discipline {} (.ofCapacity ScoreTable.defaultCapacity)
    "hero" { world := .bare } false
  have hresolved : (c.resolve outfit 1).result { scores := default }
      = .ok (.ofList [.descriptor ⟨"hero", .topmost, {}⟩]) := rfl
  have hholds : (CandidateSet.ofList [.descriptor ⟨"hero", .topmost, {}⟩]).HoldsDescriptor :=
    ⟨_, List.mem_cons_self⟩
  exact ⟨⟨_, hresolved, hholds⟩,
    hrefused (.filter (.bool true) outfit) outfit rfl trivial 0 _ _ _ hresolved hholds⟩

/-- A step to a body slot takes up the descriptors of its branch. -/
example : (Query.step "torso_upper" true
    (.step "topmost_clothing" false (.root .actor))).WellFormed := by
  decide

end EntityQuery
