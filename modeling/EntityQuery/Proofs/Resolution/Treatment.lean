import EntityQuery.Proofs.Resolution.Telling
import EntityQuery.Proofs.Support.Attempt

/-!
# What nodes find

A node with one branch treats the candidates of the branch one by one.  There are five ways to do so
(`Treatment`), and what each finds in a candidate is a function of the candidate and of what holds
throughout the query (`Asking.found`); the node gathers what is found (`Asking.treat`).  The score table
and the log have no part in it:

* `Asking.readField_finds`, `Asking.viewOutfit_finds`, `Asking.viewSlot_finds`, `Asking.keep_finds`,
  `Asking.flatten_finds`: each contribution finds this.
* `Asking.alongField_comesTo` and those after it: so the set of a node is the treated set of its branch.
-/

namespace EntityQuery

open Attire (BodySlot View)

/-- What a node with one branch does with the candidates of the branch. -/
inductive Treatment where
  | field (name : String)
  | slot (slot : BodySlot)
  | view (view : View) (isArray : Bool)
  | filter (predicate : Json)
  | flatten

/-- What a step does. -/
def Treatment.ofStep (field : String) (isArray : Bool) : Treatment :=
  match View.ofField? field with
  | some v => .view v isArray
  | none   =>
      match BodySlot.ofName? field with
      | some bodySlot => .slot bodySlot
      | none          => .field field

theorem Treatment.ofStep_view (view : View) (isArray : Bool) :
    ofStep view.field isArray = .view view isArray := by
  rw [ofStep, View.ofField?_field]

/-- No slot has the name of a view. -/
theorem Treatment.ofStep_slot (slot : BodySlot) (isArray : Bool) :
    ofStep slot.name isArray = .slot slot := by
  have hview : View.ofField? slot.name = none := by
    cases slot <;> decide
  simp only [ofStep, hview, BodySlot.ofName?_name]

/-- The entry on a predicate that failed for a candidate. -/
def Trace.Entry.failure (maker : String) (c : Candidate) (e : PredicateError) : Entry :=
  { level := .warn
    message := "predicate failed"
    resolver := maker
    fields := .ofList [("candidate", .str c.text), ("error", .str e.message)] }

namespace Asking

variable (a : Asking)

/-! ### What is found in a candidate -/

/-- What a candidate has under the name of a field. -/
def fieldOf (name : String) : Candidate → Except QueryError (Option Json)
  | .entity id    => (a.scene.world.component? id name).mapError .unread
  | .value v      => .ok (v.member? name)
  | .descriptor d => .error (.unresolvedDescriptor d.owner d.view)

/-- The candidates in a field. -/
def foundInField (name : String) (c : Candidate) : Except QueryError (List Candidate) :=
  (a.fieldOf name c).map (·.elim [] Candidate.ofField)

/-- A descriptor of the outfit of an entity or, in the array form, what a view shows of it. -/
def foundInView (view : View) (isArray : Bool) : Candidate → Except QueryError (List Candidate)
  | .entity id    =>
      ((a.scene.world.outfit id).mapError .unread).map fun outfit =>
        if isArray then (outfit.finding a.settings.tieBreak view).items.map .entity
        else [.descriptor ⟨id, view, outfit⟩]
  | .value _      => .ok []
  | .descriptor d => .error (.unresolvedDescriptor d.owner d.view)

/-- What the view of a descriptor shows of a slot; in any other candidate, its field of that name. -/
def foundInSlot (slot : BodySlot) : Candidate → Except QueryError (List Candidate)
  | .descriptor d =>
      .ok ((d.outfit.shownItems a.settings.tieBreak slot.name d.view).map .entity)
  | c             => a.foundInField slot.name c

/-- The candidate itself, if a predicate holds of it. -/
def foundByFilter (predicate : Json) : Candidate → Except QueryError (List Candidate)
  | .descriptor d => .error (.unresolvedDescriptor d.owner d.view)
  | c             =>
      match a.test predicate c with
      | .ok v                  => .ok (if Predicate.truthy v then [c] else [])
      | .error (.unread fault) => .error (.unread fault)
      | .error e               =>
          if a.settings.strictFilters then .error (.filterFailed c.text e) else .ok []

/-- The elements of a list, what the view of a descriptor shows, or the candidate itself. -/
def foundByFlattening : Candidate → List Candidate
  | .value (.arr vs) => Candidate.ofField (.arr vs)
  | .descriptor d    => (d.outfit.finding a.settings.tieBreak d.view).items.map .entity
  | c                => [c]

/-- What a treatment finds in a candidate. -/
def found : Treatment → Candidate → Except QueryError (List Candidate)
  | .field name,        c => a.foundInField name c
  | .slot slot,         c => a.foundInSlot slot c
  | .view view isArray, c => a.foundInView view isArray c
  | .filter predicate,  c => a.foundByFilter predicate c
  | .flatten,           c => .ok (a.foundByFlattening c)

/-- What a treatment makes of a set: all that it finds in the candidates, in order. -/
def treat (t : Treatment) (s : CandidateSet) : Except QueryError CandidateSet :=
  (s.toList.mapM (a.found t)).map fun found => .ofList found.flatten

/-- The set that a root stands for. -/
def rootSet : Root → Except QueryError CandidateSet
  | .actor              => .ok (.ofEntities [a.actor])
  | .location           => .ok (.ofEntities a.scene.location.toList)
  | .entities component =>
      ((a.scene.world.holders component).mapError .unread).map CandidateSet.ofEntities
  | .none               => .ok ∅

end Asking

/-! ### Contributions -/

namespace Resolving

variable {ρ : Type}

/-- The candidates that a contribution has in the end are `r`. -/
def Finds (x : Resolving (Contribution ρ)) (r : Except QueryError (List Candidate)) : Prop :=
  ∃ s, x.ComesTo s ∧ s.map (·.found) = r

theorem Finds.of_ok {x : Resolving (Contribution ρ)} {k : Contribution ρ}
    (h : x.ComesTo (.ok k)) : x.Finds (.ok k.found) :=
  ⟨_, h, rfl⟩

theorem Finds.of_error {x : Resolving (Contribution ρ)} {e : QueryError}
    (h : x.ComesTo (.error e)) : x.Finds (.error e) :=
  ⟨_, h, rfl⟩

/-- What follows on a result finds what it finds after it. -/
theorem Finds.bind {α : Type} {x : Resolving α} {f : α → Resolving (Contribution ρ)}
    {r : Except QueryError α} {g : α → List Candidate} (hx : x.ComesTo r)
    (hf : ∀ a, (f a).Finds (.ok (g a))) : Finds (x >>= f) (r.map g) := by
  choose s hs hsg using hf
  refine ⟨r >>= s, hx.bind hs, ?_⟩
  cases r with
  | ok a    => exact hsg a
  | error e => rfl

/-- What all of a set contribute, one after the other, is the set of the node. -/
theorem gather_finds {contribute : Candidate → Resolving (Contribution ρ)}
    {g : Candidate → Except QueryError (List Candidate)} (h : ∀ c, (contribute c).Finds (g c))
    (parent : CandidateSet) :
    ∃ s, (gather contribute parent).ComesTo s ∧
      s.map (·.1) = (parent.toList.mapM g).map fun found => .ofList found.flatten := by
  choose s hs hsg using h
  refine ⟨_, gather_comesTo hs parent, ?_⟩
  obtain rfl : (fun c => (s c).map (·.found)) = g := funext hsg
  rw [Attempt.mapM_map]
  cases parent.toList.mapM s with
  | error e => rfl
  | ok cs =>
      show Except.ok (CandidateSet.ofList (cs.flatMap (·.found))) = _
      rw [List.flatMap_def]
      rfl

end Resolving

namespace Asking

variable (a : Asking)

theorem note_tells (entry : Trace.Entry) :
    (a.note entry).Tells (.ok ()) (if a.traced then [entry] else []) := by
  unfold note
  split
  · exact Resolving.note_tells entry
  · exact .pure ()

theorem note_comesTo (entry : Trace.Entry) : (a.note entry).ComesTo (.ok ()) :=
  ⟨_, a.note_tells entry⟩

theorem fieldData?_comesTo (field : String) (c : Candidate) :
    (a.fieldData? field c).ComesTo (a.fieldOf field c) := by
  cases c with
  | entity id    => exact Resolving.read_comesTo _
  | value v      => exact .pure _
  | descriptor d => exact .throw _

theorem readField_finds {ρ : Type} (field : String) (report : ρ) (c : Candidate) :
    (a.readField field report c).Finds (a.foundInField field c) := by
  refine .bind (a.fieldData?_comesTo field c) fun data? => ?_
  cases data? with
  | some data => exact .of_ok (.pure _)
  | none      => exact .of_ok (.pure _)

theorem outfitOf_comesTo (entity : EntityId) :
    (a.outfitOf entity).ComesTo ((a.scene.world.outfit entity).mapError .unread) :=
  (Resolving.remark_comesTo _).bind fun _ => Resolving.read_comesTo _

theorem viewOutfit_finds (view : View) (isArray : Bool) (c : Candidate) :
    (a.viewOutfit view isArray c).Finds (a.foundInView view isArray c) := by
  cases c with
  | value v      => exact .of_ok (.pure _)
  | descriptor d => exact .of_error (.throw _)
  | entity id    =>
      refine .bind (a.outfitOf_comesTo id) fun outfit => ?_
      cases isArray with
      | false => exact .of_ok (.pure _)
      | true  =>
          have hlook := Resolving.look_comesTo (outfit.look_shows a.settings.tieBreak view)
          refine .bind hlook (g := fun finding => finding.items.map .entity) fun finding => ?_
          exact .of_ok ((Resolving.remark_comesTo _).bind fun _ => .pure _)

theorem viewSlot_finds (slot : BodySlot) (c : Candidate) :
    (a.viewSlot slot c).Finds (a.foundInSlot slot c) := by
  cases c with
  | entity id    => exact a.readField_finds _ _ _
  | value v      => exact a.readField_finds _ _ _
  | descriptor d =>
      have hlook := Resolving.look_comesTo
        (d.outfit.lookAtSlot_shows a.settings.tieBreak slot.name d.view)
      refine .bind hlook (g := fun finding => finding.items.map .entity) fun finding => ?_
      exact .of_ok ((Resolving.remark_comesTo _).bind fun _ => .pure _)

/-! What a filter does with a candidate is a matter of what the predicate finds in it. -/

section Keep

variable {predicate : Json} {maker : String} {c : Candidate}

theorem keep_tells_of_descriptor (d : Descriptor) :
    (a.keep predicate maker (.descriptor d)).Tells
      (.error (.unresolvedDescriptor d.owner d.view)) [] :=
  Resolving.Tells.bind_error (.throw _) _

variable (hc : ∀ d, c ≠ .descriptor d)
include hc

theorem keep_tells_of_ok {v : Json} (h : a.test predicate c = .ok v) :
    (a.keep predicate maker c).Tells (.ok ⟨if Predicate.truthy v then [c] else [], false⟩) [] := by
  unfold keep
  rw [h]
  cases c with
  | entity _ | value _ => exact .pure _
  | descriptor d       => exact (hc d rfl).elim

/-- A reading that fails ends the query under all settings. -/
theorem keep_tells_of_unread {fault : ReadFault} (h : a.test predicate c = .error (.unread fault)) :
    (a.keep predicate maker c).Tells (.error (.unread fault)) [] := by
  unfold keep
  rw [h]
  cases c with
  | entity _ | value _ => exact .throw _
  | descriptor d       => exact (hc d rfl).elim

/-- What becomes of any other failure is for the settings to decide. -/
theorem keep_eq_of_failed {e : PredicateError} (h : a.test predicate c = .error e)
    (he : ∀ fault, e ≠ .unread fault) :
    a.keep predicate maker c = (do
      if a.settings.strictFilters then throw (.filterFailed c.text e)
      Resolving.remark
        [{ severity := .warn
           message := "filter predicate failed, excluding"
           fields := [("candidate", .str c.text), ("error", .str e.message)] }]
      a.note (.failure maker c e)
      return ⟨[], true⟩) := by
  unfold keep
  rw [h]
  cases c with
  | descriptor d       => exact (hc d rfl).elim
  | entity _ | value _ =>
      cases e with
      | unread fault => exact (he fault rfl).elim
      | _            => rfl

theorem keep_tells_of_strict (hstrict : a.settings.strictFilters = true) {e : PredicateError}
    (h : a.test predicate c = .error e) (he : ∀ fault, e ≠ .unread fault) :
    (a.keep predicate maker c).Tells (.error (.filterFailed c.text e)) [] := by
  rw [a.keep_eq_of_failed hc h he, if_pos hstrict]
  exact Resolving.Tells.bind_error (.throw _) _

theorem keep_tells_of_lenient (hlenient : a.settings.strictFilters = false) {e : PredicateError}
    (h : a.test predicate c = .error e) (he : ∀ fault, e ≠ .unread fault) :
    (a.keep predicate maker c).Tells (.ok ⟨[], true⟩)
      (if a.traced then [.failure maker c e] else []) := by
  have hnoted := (a.note_tells (.failure maker c e)).bind_ok
    (f := fun _ => pure (Contribution.mk [] true)) (.pure _)
  rw [List.append_nil] at hnoted
  rw [a.keep_eq_of_failed hc h he, hlenient]
  exact Resolving.Tells.bind_ok (Resolving.remark_tells _) (f := fun _ => do
    a.note (.failure maker c e)
    return Contribution.mk [] true) hnoted

end Keep

/-- What a filter meets: a descriptor, a candidate of which the predicate tells, or one at which it fails,
for a reading that fails or otherwise. -/
inductive Meets (predicate : Json) (c : Candidate) : Prop where
  | descriptor (d : Descriptor) (hc : c = .descriptor d)
  | told {v : Json} (hc : ∀ d, c ≠ .descriptor d) (htest : a.test predicate c = .ok v)
  | unread {fault : ReadFault} (hc : ∀ d, c ≠ .descriptor d)
      (htest : a.test predicate c = .error (.unread fault))
  | failed {e : PredicateError} (hc : ∀ d, c ≠ .descriptor d) (htest : a.test predicate c = .error e)
      (he : ∀ fault, e ≠ .unread fault)

theorem meets (predicate : Json) (c : Candidate) : a.Meets predicate c := by
  by_cases hc : ∃ d, c = .descriptor d
  · obtain ⟨d, rfl⟩ := hc
    exact .descriptor d rfl
  have hc : ∀ d, c ≠ .descriptor d := fun d hd => hc ⟨d, hd⟩
  cases htest : a.test predicate c with
  | ok v    => exact .told hc htest
  | error e =>
      by_cases he : ∃ fault, e = .unread fault
      · obtain ⟨fault, rfl⟩ := he
        exact .unread hc htest
      · exact .failed hc htest fun fault hfault => he ⟨fault, hfault⟩

theorem keep_finds (predicate : Json) (maker : String) (c : Candidate) :
    (a.keep predicate maker c).Finds (a.foundByFilter predicate c) := by
  unfold foundByFilter
  split
  · exact .of_error ⟨_, a.keep_tells_of_descriptor _⟩
  · rename_i hc
    split
    · rename_i htest
      exact .of_ok ⟨_, a.keep_tells_of_ok hc htest⟩
    · rename_i htest
      exact .of_error ⟨_, a.keep_tells_of_unread hc htest⟩
    · rename_i he htest
      split
      · rename_i hstrict
        exact .of_error ⟨_, a.keep_tells_of_strict hc hstrict htest he⟩
      · rename_i hlenient
        exact .of_ok ⟨_, a.keep_tells_of_lenient hc (Bool.eq_false_iff.2 hlenient) htest he⟩

theorem flatten_finds (c : Candidate) :
    (a.flatten c).Finds (.ok (a.foundByFlattening c)) := by
  cases c with
  | entity id    => exact .of_ok (.pure _)
  | value v      => cases v <;> exact .of_ok (.pure _)
  | descriptor d =>
      have hlook := Resolving.look_comesTo (d.outfit.look_shows a.settings.tieBreak d.view)
      refine .bind hlook (g := fun finding => finding.items.map .entity) fun finding => ?_
      exact .of_ok (.pure _)

/-! ### Nodes -/

/-- An entry on what was made does not change it. -/
theorem noted_comesTo {α β : Type} {x : Resolving α} {r : Except QueryError α} (hx : x.ComesTo r)
    (entry : α → Trace.Entry) (f : α → β) :
    Resolving.ComesTo (do let made ← x; a.note (entry made); return f made) (r.map f) := by
  have h := hx.bind fun made => (a.note_comesTo (entry made)).bind fun _ => .pure (f made)
  cases r <;> exact h

/-- A node that gathers and makes an entry of it has what its candidates find. -/
theorem gathered_comesTo {ρ : Type} {contribute : Candidate → Resolving (Contribution ρ)}
    {g : Candidate → Except QueryError (List Candidate)} (h : ∀ c, (contribute c).Finds (g c))
    (parent : CandidateSet) (entry : CandidateSet × List ρ → Trace.Entry) :
    Resolving.ComesTo (do
        let gathered ← Resolving.gather contribute parent
        a.note (entry gathered)
        return gathered.1)
      ((parent.toList.mapM g).map fun found => .ofList found.flatten) := by
  obtain ⟨s, hs, hsg⟩ := Resolving.gather_finds h parent
  rw [← hsg]
  exact a.noted_comesTo hs entry (·.1)

theorem fromRoot_comesTo (root : Root) : (a.fromRoot root).ComesTo (a.rootSet root) := by
  unfold fromRoot rootSet
  cases root with
  | entities component =>
      have hread := Resolving.read_comesTo (a.scene.world.holders component)
      have h := a.noted_comesTo (hread.map CandidateSet.ofEntities)
        (fun result => .summary .source "source resolved" 0 result.size
          [("source", (Root.entities component).toJson)]) id
      rw [Except.map_id] at h
      exact h
  | actor    => exact a.noted_comesTo (.pure _) _ id
  | location => exact a.noted_comesTo (.pure _) _ id
  | none     => exact a.noted_comesTo (.pure _) _ id

theorem alongField_comesTo (field : String) (isArray : Bool) (parent : CandidateSet) :
    (a.alongField field isArray parent).ComesTo (a.treat (.field field) parent) :=
  a.gathered_comesTo (a.readField_finds field ()) parent _

theorem alongView_comesTo (view : View) (isArray : Bool) (parent : CandidateSet) :
    (a.alongView view isArray parent).ComesTo (a.treat (.view view isArray) parent) :=
  a.gathered_comesTo (a.viewOutfit_finds view isArray) parent _

theorem alongSlot_comesTo (slot : BodySlot) (parent : CandidateSet) :
    (a.alongSlot slot parent).ComesTo (a.treat (.slot slot) parent) :=
  a.gathered_comesTo (a.viewSlot_finds slot) parent _

theorem filtered_comesTo (predicate : Json) (parent : CandidateSet) :
    (a.filtered predicate parent).ComesTo (a.treat (.filter predicate) parent) :=
  a.gathered_comesTo (a.keep_finds predicate Resolver.filter.name) parent _

theorem flattened_comesTo (parent : CandidateSet) :
    (a.flattened parent).ComesTo (a.treat .flatten parent) :=
  a.gathered_comesTo a.flatten_finds parent _

theorem united_comesTo (left right : CandidateSet) :
    (a.united left right).ComesTo (.ok (left.union right)) :=
  (a.note_comesTo _).bind fun _ => .pure _

end Asking

end EntityQuery
