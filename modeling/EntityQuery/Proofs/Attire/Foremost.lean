import EntityQuery.Proofs.Attire.Hiding
import EntityQuery.Proofs.Attire.Topmost

/-!
# The foremost item under several views

An accessory that declares nothing stands behind every garment (`standing_lt_accessory`), and covers no other
slot.  Where all accessories are of this sort, the lineup of a slot over all layers is that of its garments
with the accessory of the slot at the end (`lineup_all_eq_append`).  So the view of all begins with the item
that is topmost, and shows nothing but that accessory if none is (`topmost_item_leads_all`).

The views part on ties.  If ties are not broken, the views that pick one item show all that cover the slot
with the score of the foremost contender.  The view of all shows none of them but the first: each declares to
cover the slot, so that the first one hides the others (`shownItems_all_of_covering`,
`ties_are_shown_iff_one_is_picked`).
-/

namespace EntityQuery.Attire

open Equipment (Worn)

namespace Layer

theorem mem_garments_or {layer : Layer} : layer ∈ garments ∨ layer ∈ [accessories] := by
  cases layer <;> decide

theorem depth_lt_of_garment {layer : Layer} (h : layer ∈ garments) : layer.depth < accessories.depth := by
  cases layer with
  | outer | base | underwear => decide
  | accessories              => exact absurd h (by decide)

end Layer

theorem Prominence.rank_le_direct (p : Prominence) : p.rank ≤ direct.rank := by
  cases p <;> decide

namespace Outfit

variable (o : Outfit) (tieBreak : TieBreak) (slot : String)

/-! ### Accessories come last -/

/-- No item that is worn as an accessory declares anything. -/
def PlainAccessories : Prop :=
  ∀ w ∈ o.items.toList, w.layer = .accessories → o.coverageOf? w.item = none

variable {o}

theorem standing_lt_accessory {w a : Worn} (hw : w.layer ∈ Layer.garments) (ha : a.layer = .accessories)
    (hplain : o.coverageOf? a.item = none) : o.standing slot w < o.standing slot a := by
  have hclass : o.classOf a = .direct := by
    rw [classOf, prominence, hplain, ha]
    rfl
  have hrank := (o.classOf w).rank_le_direct
  have hdepth := Layer.depth_lt_of_garment hw
  rw [← hclass] at hrank
  rw [← ha] at hdepth
  refine not_le.1 fun hle => ?_
  rcases (o.standing_le_iff slot).1 hle with hlt | ⟨-, hlt | ⟨heq, -⟩⟩
  · exact absurd hrank (not_le.2 hlt)
  · exact lt_asymm hdepth hlt
  · exact ne_of_gt hdepth heq

theorem lineup_all_eq_append (h : o.PlainAccessories) :
    o.lineup slot Layer.all = o.lineup slot Layer.garments ++ o.lineup slot [.accessories] := by
  refine o.eq_of_pairwise_standing slot (o.pairwise_lineup slot _)
    (List.pairwise_append.2 ⟨o.pairwise_lineup slot _, o.pairwise_lineup slot _, ?_⟩) fun w => ?_
  · intro w hw a ha
    obtain ⟨hworn, hlayer, -⟩ := (o.mem_lineup slot).1 ha
    have haccessory : a.layer = .accessories := List.mem_singleton.1 hlayer
    exact standing_lt_accessory slot ((o.mem_lineup slot).1 hw).admitted haccessory
      (h a (Equipment.mem_toList_iff.2 hworn) haccessory)
  · rw [List.mem_append, mem_lineup, mem_lineup, mem_lineup]
    constructor
    · rintro ⟨hworn, -, hreaches⟩
      exact Layer.mem_garments_or.imp (⟨hworn, ·, hreaches⟩) (⟨hworn, ·, hreaches⟩)
    · rintro (⟨hworn, -, hreaches⟩ | ⟨hworn, -, hreaches⟩) <;>
        exact ⟨hworn, Layer.mem_all _, hreaches⟩

/-- Among accessories that declare nothing, only that of the slot itself contends for it. -/
theorem itemAt?_of_mem_accessories (h : o.PlainAccessories) {w : Worn}
    (hw : w ∈ o.lineup slot [.accessories]) : o.items.itemAt? slot .accessories = some w.item := by
  obtain ⟨hworn, hlayer, hreaches⟩ := (o.mem_lineup slot).1 hw
  have haccessory : w.layer = .accessories := List.mem_singleton.1 hlayer
  have hnone := h w (Equipment.mem_toList_iff.2 hworn) haccessory
  have hslot : w.slot = slot := hreaches.resolve_right fun hcovers => by
    rw [covers, hnone] at hcovers
    cases hcovers
  rwa [hslot, haccessory] at hworn

/-! ### What comes first -/

theorem head?_shownItems_topmost {view : View} (hview : view = .topmost ∨ view = .topmostNoAccessories) :
    (o.shownItems tieBreak slot view).head? = (o.lineup slot Layer.garments).head?.map (·.item) := by
  rw [shownItems_topmost o tieBreak slot hview, Ranked.head?_topmost, List.head?_map, Option.map_map]
  rfl

theorem head?_shownItems_all :
    (o.shownItems tieBreak slot .all).head? = (o.lineup slot Layer.all).head?.map (·.item) := by
  rw [shownItems_all, head?_eraseDups, List.head?_map, List.head?_take, if_neg (Nat.succ_ne_zero _)]

/-- **What is topmost leads all that is visible.**  Let no accessory declare anything.  If a topmost item of a
slot is shown, the first one is also the first that the view of all shows.  If none is, the view of all shows
nothing but the accessory that is worn in the slot. -/
theorem topmost_item_leads_all (h : o.PlainAccessories) (l m : Ledger) :
    ((o.lookAtSlot tieBreak slot .topmost l).1.items ≠ [] →
      (o.lookAtSlot tieBreak slot .topmost l).1.items.head?
        = (o.lookAtSlot tieBreak slot .all m).1.items.head?) ∧
    ((o.lookAtSlot tieBreak slot .topmost l).1.items = [] →
      ∀ item ∈ (o.lookAtSlot tieBreak slot .all m).1.items,
        o.items.itemAt? slot .accessories = some item) := by
  rw [items_lookAtSlot, items_lookAtSlot]
  have htopmost : o.shownItems tieBreak slot .topmost = [] ↔ o.lineup slot Layer.garments = [] := by
    rw [o.shownItems_topmost tieBreak slot (.inl rfl), Ranked.topmost_eq_nil_iff, List.map_eq_nil_iff]
  refine ⟨fun hsome => ?_, fun hnone item hitem => ?_⟩
  · have hgarments : o.lineup slot Layer.garments ≠ [] := fun hnil => hsome (htopmost.2 hnil)
    rw [head?_shownItems_topmost tieBreak slot (.inl rfl), head?_shownItems_all,
      lineup_all_eq_append slot h, List.head?_append_of_ne_nil _ hgarments]
  · rw [shownItems_all, lineup_all_eq_append slot h, htopmost.1 hnone, List.nil_append,
      List.mem_eraseDups] at hitem
    obtain ⟨w, hw, rfl⟩ := List.mem_map.1 hitem
    exact itemAt?_of_mem_accessories slot h (List.mem_of_mem_take hw)

/-- Gloves that cover the wrists, and a ring on the same hands. -/
def glovesAndRing : Outfit where
  items := .ofList [⟨"hands", .accessories, "ring"⟩, ⟨"hands", .base, "gloves"⟩,
    ⟨"neck", .accessories, "chain"⟩]
  coverage := .ofList [("gloves", ⟨["wrists"], .underwear⟩)]

/-- The gloves come first on the hands.  Nothing is topmost round the neck, and the chain is all there is. -/
theorem gloves_lead_ring :
    glovesAndRing.PlainAccessories ∧
    (glovesAndRing.lookAtSlot .slotOrder "hands" .topmost { scores := default }).1.items ≠ [] ∧
    (glovesAndRing.lookAtSlot .slotOrder "hands" .topmost { scores := default }).1.items.head?
      = (glovesAndRing.lookAtSlot .slotOrder "hands" .all { scores := default }).1.items.head? ∧
    (glovesAndRing.lookAtSlot .slotOrder "neck" .topmost { scores := default }).1.items = [] ∧
    ∀ item ∈ (glovesAndRing.lookAtSlot .slotOrder "neck" .all { scores := default }).1.items,
      glovesAndRing.items.itemAt? "neck" .accessories = some item := by
  have hplain : glovesAndRing.PlainAccessories := by
    unfold PlainAccessories
    decide
  have hhands := (topmost_item_leads_all .slotOrder "hands" hplain { scores := default }
    { scores := default }).1
  have hneck := (topmost_item_leads_all .slotOrder "neck" hplain { scores := default }
    { scores := default }).2
  exact ⟨hplain, by decide, hhands (by decide), by decide, hneck (by decide)⟩

/-! ### Ties -/

/-- A foremost contender that covers the slot from elsewhere is all that the view of all shows. -/
theorem shownItems_all_of_covering {w : Worn} (hw : o.IsForemost slot Layer.all w) (hslot : w.slot ≠ slot) :
    o.shownItems tieBreak slot .all = [w.item] := by
  obtain ⟨ws, hlineup⟩ := (o.isForemost_iff slot).1 hw
  have hcovers : o.covers w.item slot := hw.contends.reaches.resolve_left hslot
  rw [shownItems_all, hlineup, List.findIdx_cons, hcovers]
  rfl

variable (o) in
/-- Under `view`, `v` covers the slot from elsewhere, and its score is that of `w`. -/
structure Rivals (view : View) (w v : Worn) : Prop where
  contends : o.Contends slot view.layers.ordered v
  elsewhere : v.slot ≠ slot
  score : (o.classOf v).score v.layer = (o.classOf w).score w.layer

variable {slot} {view : View} {w v : Worn}

theorem Rivals.ties (h : o.Rivals slot view w v) : o.Ties slot w v := by
  obtain ⟨hrank, hdepth⟩ := Prominence.score_eq_iff.1 h.score
  exact ⟨h.elsewhere, Prominence.rank_injective hrank, Layer.depth_injective hdepth⟩

/-- A view that picks one item shows the rivals of the foremost contender, if ties are not broken. -/
theorem Rivals.shown (h : o.Rivals slot view w v) (hview : view = .topmost ∨ view = .topmostNoAccessories)
    (hw : o.IsForemost slot view.layers.ordered w) (hslot : w.slot ≠ slot) :
    v.item ∈ o.shownItems .includeAll slot view := by
  have hlayers : view.layers.ordered = Layer.garments := by
    rcases hview with rfl | rfl <;> rfl
  have hv := h.contends
  rw [hlayers] at hv hw
  obtain ⟨ws, hlineup⟩ := (o.isForemost_iff slot).1 hw
  have hsorted := o.pairwise_lineup slot Layer.garments
  have hmem : v ∈ o.tied slot Layer.garments w := (o.mem_tied slot).2 ⟨hv, h.ties⟩
  rw [tied, hlineup] at hmem
  rw [hlineup] at hsorted
  rw [o.shownItems_topmost .includeAll slot hview, hlineup, topmost_map_includeAll hslot hsorted]
  exact List.mem_eraseDups.2 (List.mem_map_of_mem hmem)

/-- **Ties are shown by the views that pick one item.**  Let ties not be broken, and let the foremost
contender cover the slot from elsewhere.  A view that picks one item shows the items of all its rivals.  The
view of all shows the item of the foremost contender and nothing else, however ties are broken; so it shows
the items of the rivals only if they are that same item. -/
theorem ties_are_shown_iff_one_is_picked (hview : view.usesCoverage)
    (hw : o.IsForemost slot view.layers.ordered w) (hslot : w.slot ≠ slot) (l : Ledger) :
    ((∀ v, o.Rivals slot view w v → v.item ∈ (o.lookAtSlot .includeAll slot view l).1.items) ↔
      view.picksOne ∨ ∀ v, o.Rivals slot view w v → v.item = w.item) ∧
    (¬ view.picksOne → ∀ tieBreak, (o.lookAtSlot tieBreak slot view l).1.items = [w.item]) := by
  simp only [items_lookAtSlot]
  cases view with
  | outer | base | underwear => cases hview
  | topmost | topmostNoAccessories =>
      refine ⟨iff_of_true (fun v hv => hv.shown (by simp) hw hslot) (.inl rfl), fun hone => ?_⟩
      exact absurd rfl hone
  | all =>
      have hall : ∀ tieBreak, o.shownItems tieBreak slot .all = [w.item] :=
        fun tieBreak => shownItems_all_of_covering tieBreak slot hw hslot
      refine ⟨?_, fun _ => hall⟩
      rw [hall]
      simp [View.picksOne]

/-- The chaps come before the coat, and both are topmost below the waist. -/
theorem coatAndChaps_tie_topmost :
    let chaps : Worn := ⟨"legs", .outer, "chaps"⟩
    let coat : Worn := ⟨"torso_upper", .outer, "coat"⟩
    coatAndChaps.IsForemost "torso_lower" View.topmost.layers.ordered chaps ∧
    coatAndChaps.Rivals "torso_lower" .topmost chaps coat ∧
    coat.item ∈
      (coatAndChaps.lookAtSlot .includeAll "torso_lower" .topmost { scores := default }).1.items := by
  intro chaps coat
  have hchaps : coatAndChaps.IsForemost "torso_lower" View.topmost.layers.ordered chaps :=
    (coatAndChaps.isForemost_iff "torso_lower").2 ⟨_, rfl⟩
  have hcoat : coatAndChaps.Rivals "torso_lower" .topmost chaps coat :=
    { contends := ⟨by decide, by decide, .inr (by decide)⟩
      elsewhere := by decide
      score := by decide }
  obtain ⟨hties, -⟩ := ties_are_shown_iff_one_is_picked rfl hchaps (by decide) { scores := default }
  exact ⟨hchaps, hcoat, hties.2 (.inl rfl) coat hcoat⟩

/-- The view of all hides the coat behind the chaps, though it has their score and ties are not broken. -/
theorem coatAndChaps_tie_hidden :
    let chaps : Worn := ⟨"legs", .outer, "chaps"⟩
    let coat : Worn := ⟨"torso_upper", .outer, "coat"⟩
    coatAndChaps.IsForemost "torso_lower" View.all.layers.ordered chaps ∧ chaps.slot ≠ "torso_lower" ∧
    coatAndChaps.Rivals "torso_lower" .all chaps coat ∧
    coat.item ∉ (coatAndChaps.lookAtSlot .includeAll "torso_lower" .all { scores := default }).1.items := by
  intro chaps coat
  have hchaps : coatAndChaps.IsForemost "torso_lower" View.all.layers.ordered chaps :=
    (coatAndChaps.isForemost_iff "torso_lower").2 ⟨_, rfl⟩
  have hcoat : coatAndChaps.Rivals "torso_lower" .all chaps coat :=
    { contends := ⟨by decide, by decide, .inr (by decide)⟩
      elsewhere := by decide
      score := by decide }
  exact ⟨hchaps, by decide, hcoat, by decide⟩

end Outfit

end EntityQuery.Attire
