import EntityQuery.Proofs.Attire.Hiding
import EntityQuery.Proofs.Attire.Topmost

/-!
# What is covered is not shown

Under a view that respects coverage, whoever is shown in a slot is at least as prominent as every contender
that declares to cover the slot (`Outfit.exists_shown`): the topmost ones because they come first,
and those of the view of all because they come no later than the first declaration.  So an item that is worn
at one place and covered there by a more prominent one is shown nowhere (`Outfit.Conceals`), while the view
of its own layer looks at nothing else and shows it all the same (`Outfit.concealed_items_stay_in_their_layer`).
-/

namespace EntityQuery.Attire

open Equipment (Worn)

/-- On a sorted list, whoever comes up to the first element with `p` is not behind any with `p`. -/
theorem eq_or_rel_of_mem_take_findIdx {α : Type} {R : α → α → Prop} {p : α → Bool} {a b : α} :
    ∀ {xs : List α}, xs.Pairwise R → a ∈ xs.take (xs.findIdx p + 1) → b ∈ xs → p b → a = b ∨ R a b
  | [],      _,   ha, _,  _  => absurd ha List.not_mem_nil
  | x :: xs, hxs, ha, hb, hp => by
      obtain ⟨hx, hxs⟩ := List.pairwise_cons.1 hxs
      rw [List.take_succ_cons, List.mem_cons] at ha
      rcases ha with rfl | ha
      · rcases List.mem_cons.1 hb with rfl | hb
        · exact .inl rfl
        · exact .inr (hx b hb)
      · -- There is more to take only if `x` is not the first one already.
        rw [List.findIdx_cons] at ha
        cases hpx : p x with
        | true  => simp [hpx] at ha
        | false =>
            rw [hpx, cond_false] at ha
            have hne : b ≠ x := by
              rintro rfl
              exact Bool.false_ne_true (hpx.symm.trans hp)
            exact eq_or_rel_of_mem_take_findIdx hxs ha ((List.mem_cons.1 hb).resolve_left hne) hp

namespace Layer

/-- The view that looks at a layer of garments and at nothing else. -/
def ownView? : Layer → Option View
  | .outer       => some .outer
  | .base        => some .base
  | .underwear   => some .underwear
  | .accessories => none

theorem exists_ownView {layer : Layer} (h : layer ∈ garments) : ∃ view, layer.ownView? = some view := by
  cases layer with
  | outer | base | underwear => exact ⟨_, rfl⟩
  | accessories              => exact absurd h (by decide)

theorem alone_of_ownView {layer : Layer} {view : View} (h : layer.ownView? = some view) :
    view.usesCoverage = false ∧ view.layers.admits layer := by
  cases layer <;> cases h <;> decide

end Layer

namespace Outfit

variable (o : Outfit) (tieBreak : TieBreak) (slot : String)

theorem rank_le_of_standing_le {v w : Worn} (h : o.standing slot v ≤ o.standing slot w) :
    (o.classOf v).rank ≤ (o.classOf w).rank := by
  rcases (o.standing_le_iff slot).1 h with hlt | ⟨heq, -⟩
  · exact le_of_lt hlt
  · exact le_of_eq heq

/-! ### Who is shown -/

/-- Whoever is topmost is of the class of the foremost contender. -/
theorem exists_topmost {item : ItemId}
    (h : item ∈ Ranked.topmost tieBreak ((o.lineup slot Layer.garments).map (o.entry slot))) :
    ∃ w, o.Contends slot Layer.garments w ∧ w.item = item ∧
      ∀ b, o.Contends slot Layer.garments b → (o.classOf w).rank ≤ (o.classOf b).rank := by
  cases hlineup : o.lineup slot Layer.garments with
  | nil =>
      rw [hlineup] at h
      cases h
  | cons w ws =>
      have hw : o.IsForemost slot Layer.garments w := (o.isForemost_iff slot).2 ⟨ws, hlineup⟩
      have hrank := fun b hb => o.rank_le_of_standing_le slot (hw.first b hb)
      have hsorted := o.pairwise_lineup slot Layer.garments
      rw [hlineup] at h hsorted
      by_cases hslot : w.slot = slot
      · rw [topmost_map_of_direct hslot, List.mem_singleton] at h
        exact ⟨w, hw.contends, h.symm, hrank⟩
      · cases tieBreak with
        | slotOrder  =>
            rw [topmost_map_slotOrder, List.mem_singleton] at h
            exact ⟨w, hw.contends, h.symm, hrank⟩
        | includeAll =>
            rw [topmost_map_includeAll hslot hsorted, ← hlineup, List.mem_eraseDups] at h
            obtain ⟨v, hv, rfl⟩ := List.mem_map.1 h
            obtain ⟨hcontends, hties⟩ := (o.mem_tied slot).1 hv
            exact ⟨v, hcontends, rfl, by rwa [hties.classOf]⟩

/-- Whoever is visible comes no later than any declaration. -/
theorem exists_visible {item : ItemId} (h : item ∈ o.shownItems tieBreak slot .all) :
    ∃ w, o.Contends slot Layer.all w ∧ w.item = item ∧
      ∀ b, o.Contends slot Layer.all b → o.covers b.item slot →
        (o.classOf w).rank ≤ (o.classOf b).rank := by
  rw [shownItems_all, List.mem_eraseDups] at h
  obtain ⟨w, hw, rfl⟩ := List.mem_map.1 h
  refine ⟨w, (o.mem_lineup slot).1 (List.mem_of_mem_take hw), rfl, fun b hb hcovers => ?_⟩
  rcases eq_or_rel_of_mem_take_findIdx (o.pairwise_lineup slot Layer.all) hw
    ((o.mem_lineup slot).2 hb) hcovers with rfl | hlt
  · exact Nat.le_refl _
  · exact o.rank_le_of_standing_le slot (le_of_lt hlt)

/-- Under a view that respects coverage, an item is shown for a contender that is at least as prominent as
every garment that covers the slot. -/
theorem exists_shown {view : View} (hview : view.usesCoverage) {item : ItemId}
    (h : item ∈ o.shownItems tieBreak slot view) :
    ∃ w, o.Contends slot Layer.all w ∧ w.item = item ∧
      ∀ b, o.Contends slot Layer.garments b → o.covers b.item slot →
        (o.classOf w).rank ≤ (o.classOf b).rank := by
  have hall : ∀ {w}, o.Contends slot Layer.garments w → o.Contends slot Layer.all w :=
    fun hw => ⟨hw.worn, Layer.mem_all _, hw.reaches⟩
  cases view with
  | outer | base | underwear => cases hview
  | all =>
      obtain ⟨w, hw, hitem, hrank⟩ := o.exists_visible tieBreak slot h
      exact ⟨w, hw, hitem, fun b hb => hrank b (hall hb)⟩
  | topmost | topmostNoAccessories =>
      rw [o.shownItems_topmost tieBreak slot (by simp)] at h
      obtain ⟨w, hw, hitem, hrank⟩ := o.exists_topmost tieBreak slot h
      exact ⟨w, hall hw, hitem, fun b hb _ => hrank b hb⟩

/-! ### The view of one layer -/

/-- A view of one layer shows the item that is worn there. -/
theorem shownItems_of_worn {view : View} (hview : view.usesCoverage = false) {layer : Layer}
    {item : ItemId} (hworn : o.items.itemAt? slot layer = some item)
    (hadmits : view.layers.admits layer) : o.shownItems tieBreak slot view = [item] := by
  have hmem : (layer, item) ∈ o.items.occupiedIn slot view.layers :=
    Equipment.mem_occupiedIn.2 ⟨hworn, hadmits⟩
  have hsame : ∀ x ∈ o.items.occupiedIn slot view.layers, x = (layer, item) := by
    intro x hx
    obtain ⟨hx, hadmits'⟩ := Equipment.mem_occupiedIn.1 hx
    have hlayer : x.1 = layer := View.layer_unique_of_not_usesCoverage hview hadmits' hadmits
    rw [hlayer, hworn] at hx
    exact Prod.ext hlayer (Option.some.inj hx).symm
  have honly : o.items.occupiedIn slot view.layers = [(layer, item)] := by
    have hsorted := o.items.pairwise_occupiedIn slot view.layers
    cases hoccupied : o.items.occupiedIn slot view.layers with
    | nil      => exact absurd (hoccupied ▸ hmem) List.not_mem_nil
    | cons x xs =>
        rw [hoccupied] at hsame hsorted
        obtain rfl := hsame x List.mem_cons_self
        cases xs with
        | nil       => rfl
        | cons y ys =>
            obtain rfl := hsame y (List.mem_cons_of_mem _ List.mem_cons_self)
            exact absurd ((List.pairwise_cons.1 hsorted).1 _ List.mem_cons_self) (Nat.lt_irrefl _)
  rw [shownItems_eq_shown, o.shown_ranking_of_not_usesCoverage tieBreak slot view hview, layerItems,
    honly]
  exact ite_self _

end Outfit

namespace Outfit

variable (o : Outfit) (tieBreak : TieBreak)

theorem mem_finding_iff {view : View} {item : ItemId} :
    item ∈ (o.finding tieBreak view).items ↔
      ∃ slot ∈ o.items.slotNames, item ∈ o.shownItems tieBreak slot view := by
  rw [finding, List.mem_eraseDups, List.mem_flatMap]

/-- `b` conceals `x`: `x` is worn at one place only, a layer of garments, and declares to cover no other
slot, while `b` covers its slot from a layer of garments, and is of a more prominent class. -/
structure Conceals (b x : Worn) : Prop where
  worn : x ∈ o.items.toList
  once : ∀ w ∈ o.items.toList, w.item = x.item → w = x
  garment : x.layer ∈ Layer.garments
  coversOwn : ∀ slot, o.covers x.item slot → slot = x.slot
  coverWorn : b ∈ o.items.toList
  coverGarment : b.layer ∈ Layer.garments
  covered : o.covers b.item x.slot
  outranked : (o.classOf b).rank < (o.classOf x).rank

/-- What is concealed is shown in no slot. -/
theorem Conceals.not_shown {o : Outfit} {b x : Worn} (h : o.Conceals b x) {view : View}
    (hview : view.usesCoverage) (slot : String) : x.item ∉ o.shownItems tieBreak slot view := by
  intro hshown
  obtain ⟨w, hw, hitem, hrank⟩ := o.exists_shown tieBreak slot hview hshown
  obtain rfl : w = x := h.once w (Equipment.mem_toList_iff.2 hw.worn) hitem
  have hslot : w.slot = slot := hw.reaches.elim id fun hcovers => (h.coversOwn slot hcovers).symm
  subst hslot
  have hb : o.Contends w.slot Layer.garments b :=
    ⟨Equipment.mem_toList_iff.1 h.coverWorn, h.coverGarment, .inr h.covered⟩
  exact Nat.not_le.2 h.outranked (hrank b hb h.covered)

theorem look_eq_finding (view : View) (l : Ledger) :
    (o.look tieBreak view l).1 = o.finding tieBreak view :=
  o.look_shows tieBreak view l

/-- **What is covered is not shown, and stays in its layer.**  An item that is worn at one place only, a
layer of garments, and covers no other slot is shown neither in its slot nor in the whole outfit under a
view that respects coverage, if some garment covers its slot with a more prominent class, whatever else is
worn and declared and however ties are broken.  The view of its own layer shows it in both. -/
theorem concealed_items_stay_in_their_layer {b x : Worn} (h : o.Conceals b x) (l : Ledger) :
    (∀ view ∈ [View.topmost, .topmostNoAccessories, .all],
      x.item ∉ (o.lookAtSlot tieBreak x.slot view l).1.items ∧
        x.item ∉ (o.look tieBreak view l).1.items) ∧
    ∃ view, x.layer.ownView? = some view ∧
      x.item ∈ (o.lookAtSlot tieBreak x.slot view l).1.items ∧
      x.item ∈ (o.look tieBreak view l).1.items := by
  have hshown : ∀ view, (o.lookAtSlot tieBreak x.slot view l).1.items
      = o.shownItems tieBreak x.slot view := by
    intro view
    rw [o.lookAtSlot_shows tieBreak x.slot view l]
    rfl
  simp only [hshown, look_eq_finding, mem_finding_iff]
  constructor
  · intro view hview
    have huses : view.usesCoverage := by
      simp only [List.mem_cons, List.not_mem_nil, or_false] at hview
      rcases hview with rfl | rfl | rfl <;> rfl
    refine ⟨h.not_shown tieBreak huses x.slot, ?_⟩
    rintro ⟨slot, -, hitem⟩
    exact h.not_shown tieBreak huses slot hitem
  · have hworn := Equipment.mem_toList_iff.1 h.worn
    obtain ⟨view, hown⟩ := Layer.exists_ownView h.garment
    obtain ⟨huses, hadmits⟩ := Layer.alone_of_ownView hown
    have hmem : x.item ∈ o.shownItems tieBreak x.slot view := by
      rw [o.shownItems_of_worn tieBreak x.slot huses hworn hadmits]
      exact List.mem_singleton_self _
    exact ⟨view, hown, hmem, x.slot, Equipment.mem_slotNames_of_worn hworn, hmem⟩

/-- The coat and the chaps cover the briefs. -/
theorem coatAndChaps_conceals_briefs :
    let coat : Worn := ⟨"torso_upper", .outer, "coat"⟩
    let briefs : Worn := ⟨"torso_lower", .underwear, "briefs"⟩
    coatAndChaps.Conceals coat briefs ∧
    "briefs" ∉ (coatAndChaps.look .includeAll .all { scores := default }).1.items ∧
    "briefs" ∈ (coatAndChaps.look .includeAll .underwear { scores := default }).1.items := by
  intro coat briefs
  have hnothing : coatAndChaps.coverageOf? "briefs" = none := by decide
  have hconceals : coatAndChaps.Conceals coat briefs :=
    { worn := by decide
      once := by decide
      garment := by decide
      coversOwn := fun slot hcovers => by
        rw [covers, hnothing] at hcovers
        cases hcovers
      coverWorn := by decide
      coverGarment := by decide
      covered := by decide
      outranked := by decide }
  obtain ⟨hhidden, view, hview, -, hshown⟩ :=
    coatAndChaps.concealed_items_stay_in_their_layer .includeAll hconceals { scores := default }
  cases hview
  exact ⟨hconceals, (hhidden .all (by decide)).2, hshown⟩

end Outfit

end EntityQuery.Attire
