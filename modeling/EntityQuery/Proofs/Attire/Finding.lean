import EntityQuery.Proofs.Attire.Concealment
import EntityQuery.Proofs.Attire.Locality
import Mathlib.Algebra.Order.BigOperators.Group.List
import Mathlib.Algebra.Order.Group.Nat
import Mathlib.Data.List.Perm.Subperm

/-!
# What is found in a whole outfit

A look at an outfit goes from slot to slot and lists what a view shows of each, every item once, at the first
slot that shows it.

* `exists_approaching`: nothing is shown of a slot but items that are worn, at layers that the view looks at.
* `shownItems_ne_nil`: something is shown of each slot that holds an item at such a layer, though it need not
  be that item.
* `mem_finding_of_alone`, `mem_finding_of_undeclared`: the view of one layer finds all that is worn at the
  layer, and the view of all finds all that is worn, if nobody declares anything.

`look_is_sound_and_loses_no_slot` puts these together.
-/

namespace EntityQuery.Attire

open Equipment (Worn)

theorem nodup_eraseDups : ∀ items : List ItemId, items.eraseDups.Nodup
  | []            => List.nodup_nil
  | item :: items => by
      rw [List.eraseDups_cons, List.nodup_cons]
      refine ⟨fun hitem => ?_, nodup_eraseDups (items.filter fun i => !i == item)⟩
      simp [List.mem_eraseDups] at hitem
termination_by items => items.length
decreasing_by exact Nat.lt_succ_of_le (List.length_filter_le _ _)

theorem length_eraseDups_le (items : List ItemId) : items.eraseDups.length ≤ items.length :=
  (List.subperm_of_subset (nodup_eraseDups items) fun _ h => List.mem_eraseDups.1 h).length_le

/-! ### Rankings -/

namespace Ranked

variable {tieBreak : TieBreak} {view : View}

theorem unhidden_subset : ∀ earlier rs : List Ranked, unhidden earlier rs ⊆ rs
  | _,       []      => List.Subset.refl []
  | earlier, r :: rs => by
      have ih := unhidden_subset (earlier ++ [r]) rs
      rw [unhidden]
      split
      · exact List.subset_cons_of_subset r ih
      · exact List.cons_subset_cons r ih

/-- Only what is ranked is shown. -/
theorem shown_subset (rs : List Ranked) : shown tieBreak view rs ⊆ rs.map (·.item) := by
  rw [shown]
  split
  · cases rs with
    | nil => exact List.Subset.refl []
    | cons r rs =>
        rw [topmost, List.map_cons]
        split
        · intro item hitem
          have htied := (List.takeWhile_sublist (l := rs) fun s => s.score = r.score ∧ s.wornIn.isSome).subset
          exact List.cons_subset_cons r.item (List.map_subset _ htied) (List.mem_eraseDups.1 hitem)
        · exact List.cons_subset_cons r.item (List.nil_subset _)
  · intro item hitem
    exact List.map_subset _ (unhidden_subset [] rs) (List.mem_eraseDups.1 hitem)

/-- Whoever is ranked first is shown. -/
theorem item_mem_shown (r : Ranked) (rs : List Ranked) : r.item ∈ shown tieBreak view (r :: rs) := by
  rw [shown]
  split
  · exact List.mem_of_mem_head? (head?_topmost (r :: rs))
  · have hfirst : unhidden [] (r :: rs) = r :: unhidden [r] rs := by
      rw [unhidden]
      exact if_neg Bool.false_ne_true
    rw [visible, hfirst, List.map_cons]
    exact List.mem_eraseDups.2 List.mem_cons_self

/-- Where ties are broken, a view that picks one item shows no more than one. -/
theorem length_shown_le_one (hone : view.picksOne) (rs : List Ranked) :
    (shown .slotOrder view rs).length ≤ 1 := by
  rw [shown, if_pos hone]
  cases rs with
  | nil       => exact Nat.zero_le 1
  | cons r rs =>
      rw [topmost, if_neg (by rintro ⟨⟨⟩, -⟩)]
      exact Nat.le_refl 1

end Ranked

namespace Outfit

variable (o : Outfit) (tieBreak : TieBreak) {slot : String} {view : View}

/-! ### Slots -/

/-- Whatever is shown of a slot is worn, at a layer that the view looks at. -/
theorem exists_approaching {item : ItemId} (h : item ∈ o.shownItems tieBreak slot view) :
    ∃ w, o.Approaches slot view w ∧ w.item = item := by
  rw [shownItems_eq_shown_lineFor] at h
  obtain ⟨r, hr, hitem⟩ := List.mem_map.1 (Ranked.shown_subset _ h)
  obtain ⟨w, hw, rfl⟩ := List.mem_map.1 hr
  exact ⟨w, (o.mem_lineFor slot view).1 hw, hitem⟩

/-- Nothing is shown of a slot if nobody approaches it, and only then. -/
theorem shownItems_eq_nil_iff : o.shownItems tieBreak slot view = [] ↔ ∀ w, ¬ o.Approaches slot view w := by
  constructor
  · intro hnil w hw
    have hmem : w ∈ o.lineFor slot view := (o.mem_lineFor slot view).2 hw
    rw [shownItems_eq_shown_lineFor] at hnil
    cases hline : o.lineFor slot view with
    | nil       => exact absurd (hline ▸ hmem) List.not_mem_nil
    | cons v vs =>
        rw [hline, List.map_cons] at hnil
        exact List.ne_nil_of_mem (Ranked.item_mem_shown (o.entry slot v) _) hnil
  · intro h
    refine List.eq_nil_iff_forall_not_mem.2 fun item hitem => ?_
    obtain ⟨w, hw, -⟩ := o.exists_approaching tieBreak hitem
    exact h w hw

/-- Something is shown of a slot in which an item is worn at a layer that the view looks at. -/
theorem shownItems_ne_nil {layer : Layer} {item : ItemId} (hworn : o.items.itemAt? slot layer = some item)
    (hadmits : view.layers.admits layer) : o.shownItems tieBreak slot view ≠ [] :=
  fun hnil => (o.shownItems_eq_nil_iff tieBreak).1 hnil ⟨slot, layer, item⟩ ⟨hworn, hadmits, .inl rfl⟩

theorem length_shownItems_le_one (hone : view.picksOne) :
    (o.shownItems .slotOrder slot view).length ≤ 1 := by
  rw [shownItems_eq_shown]
  exact Ranked.length_shown_le_one hone _

/-- Where nobody declares anything, the view of all shows each item that is worn in the slot. -/
theorem mem_shownItems_of_undeclared (hcoverage : o.hasCoverage = false) {layer : Layer} {item : ItemId}
    (hworn : o.items.itemAt? slot layer = some item) : item ∈ o.shownItems tieBreak slot .all := by
  have hwhole : (o.lineup slot Layer.all).take
      ((o.lineup slot Layer.all).findIdx (fun w => o.covers w.item slot) + 1) = o.lineup slot Layer.all := by
    refine List.take_of_length_le ?_
    rw [List.findIdx_eq_length.2 fun w _ => covers_of_not_hasCoverage hcoverage w.item slot]
    exact Nat.le_succ _
  rw [shownItems_all, hwhole, List.mem_eraseDups]
  exact List.mem_map.2
    ⟨⟨slot, layer, item⟩, (o.mem_lineup slot).2 ⟨hworn, Layer.mem_all layer, .inl rfl⟩, rfl⟩

/-! ### Whole outfits -/

theorem shownItems_subset_finding {view : View} (hslot : slot ∈ o.items.slotNames) :
    o.shownItems tieBreak slot view ⊆ (o.finding tieBreak view).items :=
  fun _ hitem => (o.mem_finding_iff tieBreak).2 ⟨slot, hslot, hitem⟩

/-- Whatever is found is worn at a layer that the view looks at. -/
theorem exists_worn_of_mem_finding {item : ItemId} (h : item ∈ (o.finding tieBreak view).items) :
    ∃ w ∈ o.items.toList, w.item = item ∧ view.layers.admits w.layer := by
  obtain ⟨slot, -, hitem⟩ := (o.mem_finding_iff tieBreak).1 h
  obtain ⟨w, hw, hwitem⟩ := o.exists_approaching tieBreak hitem
  exact ⟨w, Equipment.mem_toList_iff.2 hw.worn, hwitem, hw.admitted⟩

/-- Each slot is looked at in one of two ways. -/
theorem layerReads_add_rankings (view : View) :
    (o.finding tieBreak view).layerReads + (o.finding tieBreak view).rankings
      = o.items.slotNames.length := by
  rw [List.length_eq_countP_add_countP (fun slot => decide (o.strategy slot view = .layerRead))]
  refine congrArg _ (List.countP_congr fun slot _ => ?_)
  cases o.strategy slot view <;> simp

theorem length_finding_le (hone : view.picksOne) :
    (o.finding .slotOrder view).items.length ≤ o.items.slotNames.length := by
  refine Nat.le_trans (length_eraseDups_le _) ?_
  rw [List.length_flatMap]
  have hslots := List.sum_le_card_nsmul
    (o.items.slotNames.map fun slot => (o.shownItems .slotOrder slot view).length) 1 fun n hn => by
      obtain ⟨slot, -, rfl⟩ := List.mem_map.1 hn
      exact o.length_shownItems_le_one hone
  simpa using hslots

theorem mem_finding_of_alone {layer : Layer} (hview : layer.ownView? = some view) {w : Worn}
    (hworn : w ∈ o.items.toList) (hlayer : w.layer = layer) :
    w.item ∈ (o.finding tieBreak view).items := by
  obtain ⟨huses, hadmits⟩ := Layer.alone_of_ownView hview
  have hworn := Equipment.mem_toList_iff.1 hworn
  rw [hlayer] at hworn
  refine o.shownItems_subset_finding tieBreak (Equipment.mem_slotNames_of_worn hworn) ?_
  rw [o.shownItems_of_worn tieBreak w.slot huses hworn hadmits]
  exact List.mem_singleton_self _

theorem mem_finding_of_undeclared (hcoverage : o.hasCoverage = false) {w : Worn}
    (hworn : w ∈ o.items.toList) : w.item ∈ (o.finding tieBreak .all).items := by
  have hworn := Equipment.mem_toList_iff.1 hworn
  exact o.shownItems_subset_finding tieBreak (Equipment.mem_slotNames_of_worn hworn)
    (o.mem_shownItems_of_undeclared tieBreak hcoverage hworn)

/-- **A look at an outfit is sound, and loses no slot.**  Under every view, however ties are broken and
whatever the table remembers:

* each item is listed once, and is worn somewhere at a layer that the view looks at;
* a slot that holds an item at such a layer shows something, and all that it shows is listed;
* each slot is looked at in one of two ways, and is counted once;
* a view that picks one item lists no more items than there are slots, if ties are broken;
* the view of one layer lists just what is worn at the layer, and the view of all lists just what is worn,
  if nobody declares anything. -/
theorem look_is_sound_and_loses_no_slot (view : View) (l m : Ledger) :
    let found := (o.look tieBreak view l).1
    (found.items.Nodup ∧
      ∀ item ∈ found.items, ∃ w ∈ o.items.toList, w.item = item ∧ view.layers.admits w.layer) ∧
    (∀ w ∈ o.items.toList, view.layers.admits w.layer →
      (o.lookAtSlot tieBreak w.slot view m).1.items ≠ [] ∧
        (o.lookAtSlot tieBreak w.slot view m).1.items ⊆ found.items) ∧
    found.layerReads + found.rankings = o.items.slotNames.length ∧
    (view ≠ .all → tieBreak = .slotOrder → found.items.length ≤ o.items.slotNames.length) ∧
    (∀ layer, layer.ownView? = some view → ∀ item,
      item ∈ found.items ↔ ∃ w ∈ o.items.toList, w.item = item ∧ w.layer = layer) ∧
    (view = .all → o.hasCoverage = false → ∀ item,
      item ∈ found.items ↔ ∃ w ∈ o.items.toList, w.item = item) := by
  simp only [look_eq_finding, items_lookAtSlot]
  refine ⟨⟨nodup_eraseDups _, fun item => o.exists_worn_of_mem_finding tieBreak⟩, fun w hw hadmits => ?_,
    o.layerReads_add_rankings tieBreak view, ?_, fun layer hview item => ⟨fun hitem => ?_, ?_⟩, ?_⟩
  · have hworn := Equipment.mem_toList_iff.1 hw
    exact ⟨o.shownItems_ne_nil tieBreak hworn hadmits,
      o.shownItems_subset_finding tieBreak (Equipment.mem_slotNames_of_worn hworn)⟩
  · rintro hview rfl
    refine o.length_finding_le ?_
    cases view with
    | all => exact (hview rfl).elim
    | topmost | topmostNoAccessories | outer | base | underwear => rfl
  · obtain ⟨w, hw, hwitem, hadmits⟩ := o.exists_worn_of_mem_finding tieBreak hitem
    obtain ⟨huses, hadmits'⟩ := Layer.alone_of_ownView hview
    exact ⟨w, hw, hwitem, View.layer_unique_of_not_usesCoverage huses hadmits hadmits'⟩
  · rintro ⟨w, hw, rfl, hlayer⟩
    exact o.mem_finding_of_alone tieBreak hview hw hlayer
  · rintro rfl hcoverage item
    refine ⟨fun hitem => ?_, ?_⟩
    · obtain ⟨w, hw, hwitem, -⟩ := o.exists_worn_of_mem_finding tieBreak hitem
      exact ⟨w, hw, hwitem⟩
    · rintro ⟨w, hw, rfl⟩
      exact o.mem_finding_of_undeclared tieBreak hcoverage hw

/-- The slot of the briefs shows the chaps and nothing of its own.  The briefs are found by the view of
underwear, and by the view of all where nobody wears anything else. -/
theorem coatAndChaps_found_in_three_slots :
    let found := fun view => (coatAndChaps.look .slotOrder view { scores := default }).1
    let briefs : Worn := ⟨"torso_lower", .underwear, "briefs"⟩
    briefs ∈ coatAndChaps.items.toList ∧ View.topmost.layers.admits briefs.layer ∧
    (coatAndChaps.lookAtSlot .slotOrder briefs.slot .topmost { scores := default }).1.items ≠ [] ∧
    (found .topmost).items = ["chaps", "coat"] ∧
    (found .topmost).items.length ≤ coatAndChaps.items.slotNames.length ∧
    "briefs" ∈ (found .underwear).items ∧
    "briefs" ∈ (inBriefs.look .slotOrder .all { scores := default }).1.items := by
  intro found briefs
  have hworn : briefs ∈ coatAndChaps.items.toList := by decide
  have hadmits : View.topmost.layers.admits briefs.layer := by decide
  have hlook := fun (o : Outfit) view =>
    o.look_is_sound_and_loses_no_slot .slotOrder view { scores := default } { scores := default }
  obtain ⟨-, hslots, -, hshort, -⟩ := hlook coatAndChaps .topmost
  obtain ⟨-, -, -, -, hunderwear, -⟩ := hlook coatAndChaps .underwear
  obtain ⟨-, -, -, -, -, hall⟩ := hlook inBriefs .all
  exact ⟨hworn, hadmits, (hslots briefs hworn hadmits).1, by decide +kernel, hshort (by decide) rfl,
    (hunderwear .underwear rfl "briefs").2 ⟨briefs, hworn, rfl, rfl⟩,
    (hall rfl (by decide) "briefs").2 ⟨briefs, by decide, rfl⟩⟩

end Outfit

end EntityQuery.Attire
