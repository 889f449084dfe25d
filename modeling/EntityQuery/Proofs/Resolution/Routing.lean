import EntityQuery.Proofs.Resolution.Faults
import EntityQuery.Proofs.Resolution.Outcome
import EntityQuery.World.Store
import Mathlib.Data.List.Induction

/-!
# The order of registration

A router tries the specialised resolvers before the others, and each half in the order of registration
(`Router.resolvers_ofList`).  Within either half no two resolvers accept one node
(`Resolver.eq_of_accepts`), so a node goes where it goes, in whatever order the resolvers were registered,
and however often:

* `Router.resolverFor?_ofList_congr`: routers with the same resolvers send every node to the same one.
* `Context.resolve_withRouter`: a resolution asks the router for nothing else.
* `Context.dispatch_view_inWorld`: a step to a view goes to the clothing resolver or to none.  It reads
  what is worn, and what the world has under the name of the view has no part in it.

`Engine.routing_ignores_registration_order` puts these together.
-/

namespace EntityQuery

open Attire (BodySlot ScoreTable View)

/-! ### What resolvers accept -/

/-- No field names both a slot and a view. -/
theorem Attire.View.ofField?_of_slot {field : String} {slot : BodySlot}
    (h : BodySlot.ofName? field = some slot) : View.ofField? field = none := by
  rw [← BodySlot.name_of_ofName? h]
  cases slot <;> decide

namespace Resolver

/-- The kind of the nodes that a resolver accepts. -/
def kind : Resolver → Query.Kind
  | source         => .source
  | filter         => .filter
  | union          => .union
  | arrayIteration => .arrayIteration
  | step           => .step
  | clothing       => .step
  | slot           => .step

variable {β : Type} {r s : Resolver} {n : Query.Node β}

theorem kind_eq_of_accepts (h : r.accepts n) : n.kind = r.kind := by
  cases r with
  | source | filter | union | arrayIteration => exact of_decide_eq_true h
  | step | clothing | slot                   =>
      cases n with
      | step _ _ _                       => rfl
      | root | filter | union | flatten  => cases h

/-- A generic resolver is known by the kind of its nodes. -/
theorem eq_of_kind_eq (hr : r.isSpecialized = false) (hs : s.isSpecialized = false)
    (h : r.kind = s.kind) : r = s := by
  cases r with
  | clothing | slot                                 => cases hr
  | source | step | filter | union | arrayIteration => cases s <;> simp_all [kind, isSpecialized]

theorem not_accepts_clothing_and_slot : ¬ (clothing.accepts n ∧ slot.accepts n) := by
  rintro ⟨hclothing, hslot⟩
  cases n with
  | step field isArray p            =>
      obtain ⟨slot, hslot⟩ := Option.isSome_iff_exists.1 hslot
      have hview : (View.ofField? field).isSome := hclothing
      rw [View.ofField?_of_slot hslot] at hview
      cases hview
  | root | filter | union | flatten => cases hslot

/-- **Within either half, no two resolvers accept one node.** -/
theorem eq_of_accepts (hr : r.accepts n) (hs : s.accepts n) (h : r.isSpecialized = s.isSpecialized) :
    r = s := by
  cases hspecial : s.isSpecialized with
  | false =>
      have hkind : r.kind = s.kind := (kind_eq_of_accepts hr).symm.trans (kind_eq_of_accepts hs)
      exact eq_of_kind_eq (h.trans hspecial) hspecial hkind
  | true  =>
      rw [hspecial] at h
      cases r <;> cases h <;> cases s <;> cases hspecial
      · rfl
      · exact (not_accepts_clothing_and_slot ⟨hr, hs⟩).elim
      · exact (not_accepts_clothing_and_slot ⟨hs, hr⟩).elim
      · rfl

/-- A step to a view is the business of the clothing resolver alone. -/
theorem eq_clothing_of_accepts {field : String} {view : View} (hview : View.ofField? field = some view)
    {isArray : Bool} {p : β} (h : r.accepts (.step field isArray p)) : r = clothing := by
  have hkind : Query.Kind.step = r.kind := kind_eq_of_accepts h
  cases r with
  | source | filter | union | arrayIteration => cases hkind
  | clothing => rfl
  | step     =>
      have hnone : (View.ofField? field).isNone := h
      rw [hview] at hnone
      cases hnone
  | slot     =>
      obtain ⟨slot, hslot⟩ := Option.isSome_iff_exists.1 h
      cases hview.symm.trans (View.ofField?_of_slot hslot)

end Resolver

/-! ### Routers -/

namespace Router

variable {β : Type} {rs rs' : List Resolver}

/-- A resolver is registered last, or as the last of the specialised ones. -/
theorem resolvers_register {first last : List Resolver} (hfirst : ∀ s ∈ first, s.isSpecialized)
    (hlast : ∀ s ∈ last, ¬ s.isSpecialized) (r : Resolver) :
    (register ⟨first ++ last⟩ r).resolvers =
      if r.isSpecialized then first ++ r :: last else first ++ last ++ [r] := by
  have hends : last.takeWhile Resolver.isSpecialized = [] ∧
      last.dropWhile Resolver.isSpecialized = last := by
    cases last with
    | nil         => exact ⟨rfl, rfl⟩
    | cons s last =>
        have hs := hlast s List.mem_cons_self
        exact ⟨List.takeWhile_cons_of_neg hs, List.dropWhile_cons_of_neg hs⟩
  unfold register
  split
  · simp only [List.takeWhile_append_of_pos hfirst, List.dropWhile_append_of_pos hfirst, hends,
      List.append_nil]
  · rfl

/-- **The specialised resolvers come first, and each half is in the order of registration.** -/
theorem resolvers_ofList (rs : List Resolver) : (ofList rs).resolvers =
    rs.filter (·.isSpecialized) ++ rs.filter (!·.isSpecialized) := by
  induction rs using List.reverseRecOn with
  | nil                      => rfl
  | append_singleton rs r ih =>
      have hlater : ofList (rs ++ [r]) = (ofList rs).register r := List.foldl_append ..
      have hhalves : ofList rs = ⟨rs.filter (·.isSpecialized) ++ rs.filter (!·.isSpecialized)⟩ :=
        congrArg Router.mk ih
      rw [hlater, hhalves, resolvers_register (fun s hs => (List.mem_filter.1 hs).2)
        (fun s hs => by simpa using (List.mem_filter.1 hs).2), List.filter_append, List.filter_append]
      cases hr : r.isSpecialized <;> simp [hr]

/-- Of resolvers of one half, a node goes to the one that accepts it, wherever that stands. -/
theorem find?_eq_some_iff {n : Query.Node β} {r : Resolver} {b : Bool}
    (hrs : ∀ s ∈ rs, s.isSpecialized = b) :
    rs.find? (·.accepts n) = some r ↔ r ∈ rs ∧ r.accepts n := by
  constructor
  · intro h
    exact ⟨List.mem_of_find?_eq_some h, List.find?_some (p := fun r : Resolver => r.accepts n) h⟩
  · rintro ⟨hmem, hr⟩
    cases h : rs.find? (·.accepts n) with
    | none   => exact (List.find?_eq_none.1 h r hmem hr).elim
    | some s =>
        have hs : s.accepts n := List.find?_some (p := fun r : Resolver => r.accepts n) h
        have hclass := (hrs s (List.mem_of_find?_eq_some h)).trans (hrs r hmem).symm
        rw [Resolver.eq_of_accepts hs hr hclass]

/-- **Routers with the same resolvers send every node to the same one**, or both to none. -/
theorem resolverFor?_ofList_congr (h : ∀ r, r ∈ rs' ↔ r ∈ rs) (n : Query.Node β) :
    (ofList rs').resolverFor? n = (ofList rs).resolverFor? n := by
  have hhalf : ∀ b : Bool, (rs'.filter (·.isSpecialized == b)).find? (·.accepts n) =
      (rs.filter (·.isSpecialized == b)).find? (·.accepts n) := by
    intro b
    ext r
    rw [find?_eq_some_iff (b := b) (by simp), find?_eq_some_iff (b := b) (by simp), List.mem_filter,
      List.mem_filter, h]
  have hfirst := hhalf true
  have hlast := hhalf false
  simp only [beq_true, beq_false] at hfirst hlast
  rw [resolverFor?, resolverFor?, resolvers_ofList, resolvers_ofList, List.find?_append,
    List.find?_append, hfirst, hlast]

end Router

/-! ### Resolutions -/

namespace Context

/-- What holds throughout a resolution, but for the router. -/
def withRouter (c : Context) (router : Router) : Context :=
  { c with router }

variable {c : Context} {router : Router}

theorem dispatch_withRouter
    (h : ∀ n : Query.Node (Resolving CandidateSet), router.resolverFor? n = c.router.resolverFor? n)
    (d : Nat) (n : Query.Node (Resolving CandidateSet)) :
    (c.withRouter router).dispatch d n = c.dispatch d n := by
  unfold dispatch
  rw [show (c.withRouter router).router.resolverFor? n = c.router.resolverFor? n from h n]
  rfl

/-- A resolution asks the router for nothing but where nodes go. -/
theorem resolve_withRouter
    (h : ∀ n : Query.Node (Resolving CandidateSet), router.resolverFor? n = c.router.resolverFor? n)
    (q : Query) (d : Nat) : (c.withRouter router).resolve q d = c.resolve q d := by
  induction q generalizing d with
  | root root => exact dispatch_withRouter h d _
  | step _ _ _ ih | filter _ _ ih | flatten _ ih =>
      rw [resolve, resolve, ih]
      exact dispatch_withRouter h d _
  | union _ _ ihl ihr =>
      rw [resolve, resolve, ihl, ihr]
      exact dispatch_withRouter h d _

end Context

/-- Engines whose routers send nodes to the same resolvers report the same, and learn the same. -/
theorem Engine.ask_withRouter (e : Engine) {router : Router}
    (h : ∀ n : Query.Node (Resolving CandidateSet), router.resolverFor? n = e.router.resolverFor? n)
    (q : Query) (actor : EntityId) (scene : Scene) (traced : Bool) :
    let asked := { e with router }.ask q actor scene traced
    asked.1 = (e.ask q actor scene traced).1 ∧ asked.2.scores = (e.ask q actor scene traced).2.scores := by
  have hresolve : ({ e with router }.context actor scene traced).resolve q 0 =
      (e.context actor scene traced).resolve q 0 :=
    Context.resolve_withRouter (c := e.context actor scene traced) h q 0
  unfold ask
  rw [hresolve]
  exact ⟨rfl, rfl⟩

/-! ### Steps to a view -/

namespace World

variable {w w' : World} (hequipment : ∀ id, w'.component? id equipmentComponent =
    w.component? id equipmentComponent)
  (hcoverage : ∀ id, w'.component? id coverageComponent = w.component? id coverageComponent)

include hcoverage in
theorem outfitOf_congr (items : Attire.Equipment) : w'.outfitOf items = w.outfitOf items := by
  simp only [outfitOf, withCoverage, hcoverage]

include hcoverage in
theorem coverageRemarks_congr (entity : EntityId) (items : List Attire.ItemId) :
    w'.coverageRemarks entity items = w.coverageRemarks entity items := by
  induction items with
  | nil             => rfl
  | cons item items ih => simp only [coverageRemarks, hcoverage, ih]

include hequipment hcoverage

/-- What somebody wears is in two components only. -/
theorem outfit_congr (entity : EntityId) : w'.outfit entity = w.outfit entity := by
  simp only [outfit, hequipment, outfitOf_congr hcoverage]

theorem outfitRemarks_congr (entity : EntityId) : w'.outfitRemarks entity = w.outfitRemarks entity := by
  simp only [outfitRemarks, hequipment, coverageRemarks_congr hcoverage]

end World

/-- The world has the same data, but for the components of one name. -/
def World.AgreesBut (name : String) (w w' : World) : Prop :=
  ∀ id component, component ≠ name → w'.component? id component = w.component? id component

namespace Asking

variable (a : Asking) {field : String} {view : View} {w' : World}

/-- What is in the component of a view's name has no part in what somebody wears. -/
theorem outfitOf_inWorld (hview : View.ofField? field = some view)
    (h : a.scene.world.AgreesBut field w') (entity : EntityId) :
    (a.inWorld w').outfitOf entity = a.outfitOf entity := by
  have hne : ∀ component, View.ofField? component = none → component ≠ field := by
    rintro component hnone rfl
    cases hview.symm.trans hnone
  have hequipment := fun id => h id equipmentComponent (hne _ (by decide))
  have hcoverage := fun id => h id coverageComponent (hne _ (by decide))
  simp only [outfitOf, inWorld, World.outfit_congr hequipment hcoverage,
    World.outfitRemarks_congr hequipment hcoverage]

theorem alongView_inWorld (hview : View.ofField? field = some view)
    (h : a.scene.world.AgreesBut field w') (isArray : Bool) (parent : CandidateSet) :
    (a.inWorld w').alongView view isArray parent = a.alongView view isArray parent := by
  have hcontribution : (a.inWorld w').viewOutfit view isArray = a.viewOutfit view isArray := by
    funext c
    cases c with
    | value | descriptor => rfl
    | entity id          =>
        simp only [viewOutfit, a.outfitOf_inWorld hview h]
        rfl
  simp only [alongView, hcontribution]
  rfl

end Asking

/-- **A step to a view reads no component of the view's name.**  Whatever its branch comes to, it goes the
same way over a world that has other data there. -/
theorem Context.dispatch_view_inWorld (c : Context) {field : String} {view : View} {w' : World}
    (hview : View.ofField? field = some view) (h : c.scene.world.AgreesBut field w') (d : Nat)
    (isArray : Bool) (branch : Resolving CandidateSet) :
    (c.inWorld w').dispatch d (.step field isArray branch) = c.dispatch d (.step field isArray branch) := by
  have hresolver : ∀ r, c.router.resolverFor? (.step field isArray branch) = some r →
      r.resolve (c.inWorld w').toAsking (.step field isArray branch) =
        r.resolve c.toAsking (.step field isArray branch) := by
    intro r hr
    obtain rfl := Resolver.eq_clothing_of_accepts hview (Router.accepts_of_resolverFor? hr)
    simp only [Resolver.resolve, hview]
    exact congrArg (branch >>= ·) (funext fun parent => c.alongView_inWorld hview h isArray parent)
  unfold dispatch
  cases hr : c.router.resolverFor? (.step field isArray branch) with
  | none   =>
      rw [show (c.inWorld w').router.resolverFor? (.step field isArray branch) = none from hr]
      rfl
  | some r =>
      rw [show (c.inWorld w').router.resolverFor? (.step field isArray branch) = some r from hr]
      simp only [hresolver r hr]
      rfl

/-- **Routing does not depend on the order of registration.**  Whichever resolvers are registered, and in
whatever order and however often:

* the specialised ones are tried first, and each half in the order of registration;
* with the same resolvers in another list, every node goes to the same resolver, or in both cases to none,
  and an engine gives the same report on every query, whatever the settings, the actor, the scene and the
  score table are, and has learnt the same scores from it;
* a step to a view never goes to the resolver of plain fields, and it goes the same way whatever components
  of the view's name there are in the world. -/
theorem Engine.routing_ignores_registration_order (rs : List Resolver) :
    (Router.ofList rs).resolvers = rs.filter (·.isSpecialized) ++ rs.filter (!·.isSpecialized) ∧
    (∀ rs' : List Resolver, (∀ r, r ∈ rs' ↔ r ∈ rs) →
      (∀ (β : Type) (n : Query.Node β),
        (Router.ofList rs').resolverFor? n = (Router.ofList rs).resolverFor? n) ∧
      ∀ (settings : Settings) (scores : ScoreTable) (q : Query) (actor : EntityId) (scene : Scene)
        (traced : Bool),
        let asked := fun rs => (Engine.mk settings (.ofList rs) scores).ask q actor scene traced
        (asked rs').1 = (asked rs).1 ∧ (asked rs').2.scores = (asked rs).2.scores) ∧
    ∀ (field : String) (view : View), View.ofField? field = some view →
      ∀ (asking : Asking) (d : Nat) (isArray : Bool) (branch : Resolving CandidateSet),
        let c : Context := { toAsking := asking, router := .ofList rs }
        let step : Query.Node (Resolving CandidateSet) := .step field isArray branch
        c.router.resolverFor? step ≠ some .step ∧
          ∀ w' : World, asking.scene.world.AgreesBut field w' →
            (c.inWorld w').dispatch d step = c.dispatch d step := by
  refine ⟨Router.resolvers_ofList rs, fun rs' h => ⟨fun β n => Router.resolverFor?_ofList_congr h n, ?_⟩,
    fun field view hview asking d isArray branch => ⟨fun hstep => ?_, fun w' hw' => ?_⟩⟩
  · intro settings scores q actor scene traced asked
    exact (Engine.mk settings (.ofList rs) scores).ask_withRouter
      (fun n => Router.resolverFor?_ofList_congr h n) q actor scene traced
  · cases Resolver.eq_clothing_of_accepts hview (Router.accepts_of_resolverFor? hstep)
  · exact Context.dispatch_view_inWorld _ hview hw' d isArray branch

/-- The hero's cloak is found by routers of two orders, and a component that has the name of the view is
not looked at. -/
theorem Engine.cloak_found_in_any_order :
    let rs : List Resolver := [.step, .slot, .step, .source, .clothing]
    let rs' : List Resolver := [.clothing, .source, .slot, .step]
    let worn := Json.object [("torso_upper", .object [("outer", .str "cloak")])]
    let store := (∅ : Store).insert "hero" equipmentComponent (.object [("equipped", worn)])
    let decoy := store.insert "hero" "topmost_clothing" (.str "decoy")
    let report := fun rs q =>
      ((Engine.mk {} (.ofList rs) default).ask q "hero" { world := store.world } true).1
    let outfit : Query := .step "topmost_clothing" false (.root .actor)
    let torso : Query := .step "torso_upper" false outfit
    let c : Context := { actor := "hero", scene := { world := store.world }, router := .ofList rs }
    let step : Query.Node (Resolving CandidateSet) :=
      .step "topmost_clothing" false (c.resolve (.root .actor) 1)
    (Router.ofList rs).resolvers = [.slot, .clothing, .step, .step, .source] ∧
    (report rs torso).outcome = .ok ⟨[.entity "cloak"]⟩ ∧ report rs' torso = report rs torso ∧
    store.world.AgreesBut "topmost_clothing" decoy.world ∧
    c.router.resolverFor? step ≠ some .step ∧ (c.inWorld decoy.world).dispatch 0 step = c.dispatch 0 step := by
  intro rs rs' worn store decoy report outfit torso c step
  have hsame : ∀ r, r ∈ rs' ↔ r ∈ rs := by
    intro r
    cases r <;> decide
  have hagrees : store.world.AgreesBut "topmost_clothing" decoy.world := by
    intro id component hcomponent
    show Except.ok (decoy.component? id component) = Except.ok (store.component? id component)
    rw [Store.component?_insert, if_neg fun h => hcomponent h.2]
  obtain ⟨-, hreports, hstep⟩ := routing_ignores_registration_order rs
  obtain ⟨hgeneric, hworlds⟩ := hstep "topmost_clothing" .topmost (by decide) c.toAsking 0 false
    (c.resolve (.root .actor) 1)
  exact ⟨rfl, by decide +kernel,
    ((hreports rs' hsame).2 {} default torso "hero" { world := store.world } true).1, hagrees, hgeneric,
    hworlds decoy.world hagrees⟩

end EntityQuery
