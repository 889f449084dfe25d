import EntityQuery.Proofs.Attire.Occupied
import EntityQuery.Proofs.Resolution.Distribution

/-!
# The slots of an outfit, one by one

The array form of a step to a view lists what the view shows of all slots of an outfit.  A query may as
well step to the view, go on to each of the slots, and unite what it finds there.

* `Context.outcome_unionAll`: a left-nested union comes to the union of the sets, if that is within the
  bound on the size; the sets on the way are no larger.
* `Engine.array_form_eq_union_of_slots`: so both ways have one answer, in one order, if the bound on the
  depth admits the nested union.
-/

namespace EntityQuery

open Attire (BodySlot Outfit ScoreTable View)

namespace Query

/-- The union of queries, nested to the left. -/
def unionAll (q : Query) (qs : List Query) : Query :=
  qs.foldl union q

/-- What a view shows of all that the actor wears, and of one slot of it. -/
def attire (view : View) : Query :=
  step view.field true (root .actor)

def attireIn (view : View) (slot : BodySlot) : Query :=
  step slot.name false (step view.field false (root .actor))

end Query

namespace Context

variable (c : Context) {d : Nat}

/-! ### Nested unions -/

/-- **A left-nested union comes to the union of the sets.** -/
theorem outcome_unionAll {α : Type} {f : α → Query} {g : α → CandidateSet} {as : List α} {q : Query}
    {s : CandidateSet} (hq : c.outcome q (d + as.length) = .ok s)
    (hf : ∀ a ∈ as, ∀ k ≤ d + as.length, c.outcome (f a) k = .ok (g a))
    (hsize : ((as.map g).foldl CandidateSet.union s).size ≤ c.settings.maxCandidates) :
    c.outcome (.unionAll q (as.map f)) d = .ok ((as.map g).foldl CandidateSet.union s) := by
  induction as generalizing q s with
  | nil          => exact hq
  | cons a as ih =>
      have hlt := c.lt_maxDepth_of_outcome hq
      have hfirst : c.outcome (f a) (d + as.length + 1) = .ok (g a) :=
        hf a List.mem_cons_self _ (Nat.le_refl _)
      have hunion := Nat.le_trans (CandidateSet.size_le_foldl_union (s.union (g a)) (as.map g)) hsize
      have hdepth : d + as.length < c.settings.maxDepth := Nat.lt_of_succ_lt hlt
      exact ih (c.outcome_union_eq_ok.2 ⟨hdepth, ⟨s, g a, hq, hfirst, rfl⟩, hunion⟩)
        (fun a' ha' k hk => hf a' (List.mem_cons_of_mem a ha') k (Nat.le_succ_of_le hk)) hsize

/-! ### Outfits -/

variable {view : View} {outfit : Outfit} (houtfit : c.scene.world.outfit c.actor = .ok outfit)
include houtfit

/-- The array form comes to what the view shows of all slots. -/
theorem outcome_attire {s : CandidateSet} (h : c.outcome (.attire view) d = .ok s) :
    s = .ofEntities (outfit.items.slotNames.flatMap fun slot =>
      outfit.shownItems c.settings.tieBreak slot view) ∧ 1 ≤ c.settings.maxCandidates := by
  obtain ⟨-, ⟨t, ht, htreat⟩, -⟩ := (c.outcome_above_eq_ok (.step view.field true)).1 h
  obtain ⟨-, hroot, hsize⟩ := c.within_eq_ok.1 ht
  cases hroot
  have hfound : c.found (.view view true) (.entity c.actor) =
      .ok ((outfit.finding c.settings.tieBreak view).items.map .entity) := by
    rw [Asking.found, Asking.foundInView, houtfit]
    rfl
  rw [Query.Unary.treatment, Treatment.ofStep_view, c.treat_singleton rfl hfound] at htreat
  cases htreat
  exact ⟨CandidateSet.ofEntities_eraseDups _, hsize⟩

/-- A step to a view and on to a slot comes to what the view shows of the slot. -/
theorem outcome_attireIn (slot : BodySlot) (hd : d + 3 ≤ c.settings.maxDepth)
    (hone : 1 ≤ c.settings.maxCandidates)
    (hsize : (CandidateSet.ofEntities (outfit.shownItems c.settings.tieBreak slot.name view)).size ≤
      c.settings.maxCandidates) :
    c.outcome (.attireIn view slot) d =
      .ok (.ofEntities (outfit.shownItems c.settings.tieBreak slot.name view)) := by
  have hroot : c.outcome (.root .actor) (d + 2) = .ok (.ofEntities [c.actor]) :=
    c.within_eq_ok.2 ⟨hd, rfl, hone⟩
  have hfound : c.found (.view view false) (.entity c.actor) =
      .ok [.descriptor ⟨c.actor, view, outfit⟩] := by
    rw [Asking.found, Asking.foundInView, houtfit]
    rfl
  have hview : c.outcome (.step view.field false (.root .actor)) (d + 1) =
      .ok (.ofList [.descriptor ⟨c.actor, view, outfit⟩]) := by
    refine (c.outcome_above_eq_ok (.step view.field false)).2 ⟨by omega, ⟨_, hroot, ?_⟩, hone⟩
    rw [Query.Unary.treatment, Treatment.ofStep_view, c.treat_singleton rfl hfound]
  refine (c.outcome_above_eq_ok (.step slot.name false)).2 ⟨by omega, ⟨_, hview, ?_⟩, hsize⟩
  rw [Query.Unary.treatment, Treatment.ofStep_slot, c.treat_singleton rfl rfl]
  rfl

/-- **The union of the occupied slots comes to what the array form comes to.** -/
theorem outcome_union_of_slots {slot : BodySlot} {slots : List BodySlot}
    (hslots : outfit.Occupies (slot :: slots)) (hdepth : slots.length + 3 ≤ c.settings.maxDepth)
    {s : CandidateSet} (h : c.outcome (.attire view) 0 = .ok s) :
    c.outcome (.unionAll (.attireIn view slot) (slots.map (.attireIn view))) 0 = .ok s := by
  have hsize := c.size_le_of_outcome h
  obtain ⟨rfl, hone⟩ := c.outcome_attire houtfit h
  let shown := fun slot : BodySlot => outfit.shownItems c.settings.tieBreak slot.name view
  have hnames := (Outfit.occupies_iff (World.full_of_outfit houtfit)).1 hslots
  have hshown : (outfit.items.slotNames.flatMap fun slot =>
      outfit.shownItems c.settings.tieBreak slot view) = shown slot ++ slots.flatMap shown := by
    rw [hnames, List.flatMap_map, List.flatMap_cons]
  rw [hshown] at hsize ⊢
  have hslot : ∀ slot' ∈ slot :: slots, ∀ k ≤ 0 + slots.length,
      c.outcome (.attireIn view slot') k = .ok (.ofEntities (shown slot')) := by
    intro slot' hmem k hk
    have hsubset : shown slot' ⊆ shown slot ++ slots.flatMap shown := fun id hid =>
      List.flatMap_cons ▸ List.mem_flatMap.2 ⟨slot', hmem, hid⟩
    exact c.outcome_attireIn houtfit slot' (by omega) hone
      (Nat.le_trans (CandidateSet.size_ofEntities_le_of_subset hsubset) hsize)
  have hunion := CandidateSet.foldl_union_ofEntities shown slots (shown slot)
  rw [← hunion] at hsize ⊢
  exact c.outcome_unionAll (hslot slot List.mem_cons_self _ (Nat.le_refl _))
    (fun slot' hmem => hslot slot' (List.mem_cons_of_mem slot hmem)) hsize

end Context

/-- **The array form is the union over the occupied slots.**  Under the standard router, whatever the view,
the actor, the scene and the settings are, and whatever the score tables remember: if the actor wears
something in some slots and in no others, all of them slots that a query can name, and the array form has
an answer, then the left-nested union of the steps to these slots, by name, has the same one in the same
order.  The bound on the depth has to admit the nested union. -/
theorem Engine.array_form_eq_union_of_slots (settings : Settings) (scores scores' : ScoreTable)
    (view : View) (actor : EntityId) (scene : Scene) (traced : Bool) {outfit : Outfit}
    (houtfit : scene.world.outfit actor = .ok outfit) {slot : BodySlot} {slots : List BodySlot}
    (hslots : outfit.Occupies (slot :: slots)) (hdepth : (slot :: slots).length + 2 ≤ settings.maxDepth)
    (answer : Answer) :
    let outcome := fun scores q =>
      ((Engine.mk settings .standard scores).ask q actor scene traced).1.outcome
    outcome scores (.attire view) = .ok answer →
      outcome scores' (.unionAll (.attireIn view slot) (slots.map (.attireIn view))) = .ok answer := by
  intro outcome hanswer
  let e : Engine := { settings, router := .standard, scores }
  let e' : Engine := { settings, router := .standard, scores := scores' }
  have harray := (e.ask_outcome rfl (.attire view) actor scene traced).symm.trans hanswer
  obtain ⟨s, hs, hanswer⟩ := Attempt.bind_eq_ok.1 harray
  have hunion := (e'.context actor scene traced).outcome_union_of_slots houtfit hslots hdepth hs
  refine (e'.ask_outcome rfl _ actor scene traced).trans ?_
  rw [hunion]
  exact hanswer

/-- The squire's cloak covers the legs as well, where it hides the hose. -/
def squiresAttire : Store :=
  let slots :=
    [("torso_upper", Json.object [("outer", .str "cloak"), ("base", .str "shirt")]),
      ("legs", .object [("outer", .str "cloak"), ("base", .str "hose")]),
      ("head_gear", .object [("accessories", .str "feather"), ("outer", .str "hat")])]
  ((∅ : Store).insert "squire" equipmentComponent (.object [("equipped", .object slots)])).insert
    "cloak" coverageComponent (.object [("covers", .arr [.str "legs"]), ("coveragePriority", .str "outer")])

/-- All that is visible of the squire's attire, at once and slot by slot; the cloak is listed once. -/
theorem Engine.squires_attire_slot_by_slot :
    let outcome := fun scores q =>
      ((Engine.mk {} .standard scores).ask q "squire" { world := squiresAttire.world } false).1.outcome
    let bySlots : Query :=
      .union (.union (.attireIn .all .headGear) (.attireIn .all .legs)) (.attireIn .all .torsoUpper)
    let visible : Answer := ⟨[.entity "hat", .entity "feather", .entity "cloak", .entity "shirt"]⟩
    outcome default (.attire .all) = .ok visible ∧ outcome default bySlots = .ok visible := by
  intro outcome bySlots visible
  have hvisible : outcome default (.attire .all) = .ok visible := by
    decide +kernel
  obtain ⟨outfit, houtfit, hnames⟩ : ∃ outfit, squiresAttire.world.outfit "squire" = .ok outfit ∧
      outfit.items.slotNames = ["head_gear", "legs", "torso_upper"] := ⟨_, rfl, rfl⟩
  have hslots : outfit.Occupies [.headGear, .legs, .torsoUpper] :=
    (Outfit.occupies_iff (World.full_of_outfit houtfit)).2 hnames
  have hnested : Query.unionAll (.attireIn .all .headGear) ([.legs, .torsoUpper].map (.attireIn .all)) =
      bySlots := rfl
  have hunion := array_form_eq_union_of_slots {} default default .all "squire"
    { world := squiresAttire.world } false houtfit hslots (by decide) visible
  rw [hnested] at hunion
  exact ⟨hvisible, hunion hvisible⟩

end EntityQuery
