import EntityQuery.Proofs.Attire.Reading

/-!
# What a slot shows is a matter of the slot

Under a view, an item approaches a slot if it is worn there at a layer that the view looks at, or worn
elsewhere at such a layer and declares to cover the slot, if the view respects coverage
(`Outfit.Approaches`).  What the view shows of the slot is told from those who approach it, as they stand
(`shownItems_eq_shown_lineFor`): from their classes, and from whether they cover the slot.

So two outfits that look alike in a slot show the same items there (`slots_alike_show_alike`), whatever else
is worn and declared.  One of them may be read off its layers, and the other ranked: who else declares
something decides on the strategy, and on nothing more.
-/

namespace EntityQuery.Attire

open Equipment (Worn)

namespace Outfit

variable (o : Outfit) (tieBreak : TieBreak) (slot : String) (view : View)

/-! ### Who approaches a slot -/

/-- Under `view`, `w` has a say in what is seen in `slot`. -/
structure Approaches (w : Worn) : Prop where
  worn : o.items.itemAt? w.slot w.layer = some w.item
  admitted : view.layers.admits w.layer
  reaches : w.slot = slot ∨ view.usesCoverage ∧ o.covers w.item slot

theorem mem_approaching_iff {w : Worn} :
    w ∈ o.approaching slot view ↔ o.Approaches slot view w := by
  cases hview : view.usesCoverage with
  | true =>
      rw [mem_approaching o slot hview]
      exact ⟨fun h => ⟨h.worn, LayerSet.mem_ordered.1 h.admitted, h.reaches.imp_right (⟨hview, ·⟩)⟩,
        fun h => ⟨h.worn, LayerSet.mem_ordered.2 h.admitted, h.reaches.imp_right (·.2)⟩⟩
  | false =>
      rw [approaching, o.covering_eq_nil slot hview, List.append_nil, mem_direct]
      constructor
      · rintro ⟨hworn, hslot, hadmits⟩
        exact ⟨hworn, hadmits, .inl hslot⟩
      · rintro ⟨hworn, hadmits, hslot | ⟨huses, -⟩⟩
        · exact ⟨hworn, hslot, hadmits⟩
        · exact absurd (hview.symm.trans huses) Bool.false_ne_true

/-- Those who approach a slot, as they stand. -/
def lineFor : List Worn :=
  o.sortWorn slot (o.approaching slot view)

theorem mem_lineFor {w : Worn} : w ∈ o.lineFor slot view ↔ o.Approaches slot view w := by
  rw [lineFor, mem_sortWorn, mem_approaching_iff]

theorem pairwise_lineFor :
    (o.lineFor slot view).Pairwise (o.standing slot · < o.standing slot ·) := by
  refine o.pairwise_sortWorn slot (o.nodup_approaching slot view) fun w hw => ?_
  exact Equipment.mem_toList_iff.2 ((o.mem_approaching_iff slot view).1 hw).worn

/-- Under every view, what is shown of a slot is told from those who approach it. -/
theorem shownItems_eq_shown_lineFor :
    o.shownItems tieBreak slot view
      = Ranked.shown tieBreak view ((o.lineFor slot view).map (o.entry slot)) := by
  rw [shownItems_eq_shown, ranking_eq_map_sortWorn, lineFor]

/-! ### Outfits that look alike in a slot -/

/-- The class that an item declares, if it declares anything. -/
def declaredClass? (item : ItemId) : Option Prominence :=
  (o.coverageOf? item).map (·.prominence)

theorem prominence_eq_getD (item : ItemId) (layer : Layer) :
    o.prominence item layer = (o.declaredClass? item).getD (.ofLayer layer) := by
  rw [prominence, declaredClass?]
  cases o.coverageOf? item with
  | none   => rfl
  | some c => rfl

/-- A slot that no declaration is about is covered by no item. -/
theorem covers_eq_false {o : Outfit} {slot : String}
    (h : ∀ e ∈ o.coverage.entries, e.2.covers slot = false) (item : ItemId) :
    o.covers item slot = false := by
  rw [covers, coverageOf?]
  cases hcoverage : o.coverage.get? item with
  | none   => rfl
  | some c => exact h (item, c) (Entries.mem_of_get? hcoverage)

/-- Under `view`, `o` and `o'` look alike in `slot`. -/
structure AlikeIn (o' : Outfit) : Prop where
  /-- The slot holds the same items. -/
  held : ∀ layer, view.layers.admits layer →
    o.items.itemAt? slot layer = o'.items.itemAt? slot layer
  /-- Each declares the same class, if any, and covers the slot in both or in neither. -/
  declared : ∀ layer item, view.layers.admits layer → o.items.itemAt? slot layer = some item →
    o.declaredClass? item = o'.declaredClass? item ∧ o.covers item slot = o'.covers item slot
  /-- The slot is covered from the same places by the same items. -/
  covered : view.usesCoverage → ∀ w : Worn, w.slot ≠ slot → view.layers.admits w.layer →
    (o.items.itemAt? w.slot w.layer = some w.item ∧ o.covers w.item slot ↔
      o'.items.itemAt? w.slot w.layer = some w.item ∧ o'.covers w.item slot)
  /-- They do so with the same classes. -/
  coveringClass : view.usesCoverage → ∀ w : Worn, w.slot ≠ slot → view.layers.admits w.layer →
    o.items.itemAt? w.slot w.layer = some w.item → o.covers w.item slot →
      o.declaredClass? w.item = o'.declaredClass? w.item

variable {o tieBreak slot view} {o' : Outfit} {w : Worn}

theorem AlikeIn.approaches_iff (h : o.AlikeIn slot view o') :
    o.Approaches slot view w ↔ o'.Approaches slot view w := by
  by_cases hslot : w.slot = slot
  · constructor
    · rintro ⟨hworn, hadmits, -⟩
      rw [hslot, h.held w.layer hadmits, ← hslot] at hworn
      exact ⟨hworn, hadmits, .inl hslot⟩
    · rintro ⟨hworn, hadmits, -⟩
      rw [hslot, ← h.held w.layer hadmits, ← hslot] at hworn
      exact ⟨hworn, hadmits, .inl hslot⟩
  · constructor
    · rintro ⟨hworn, hadmits, hreaches⟩
      obtain ⟨huses, hcovers⟩ := hreaches.resolve_left hslot
      obtain ⟨hworn', hcovers'⟩ := (h.covered huses w hslot hadmits).1 ⟨hworn, hcovers⟩
      exact ⟨hworn', hadmits, .inr ⟨huses, hcovers'⟩⟩
    · rintro ⟨hworn, hadmits, hreaches⟩
      obtain ⟨huses, hcovers⟩ := hreaches.resolve_left hslot
      obtain ⟨hworn', hcovers'⟩ := (h.covered huses w hslot hadmits).2 ⟨hworn, hcovers⟩
      exact ⟨hworn', hadmits, .inr ⟨huses, hcovers'⟩⟩

/-- Whoever approaches the slot declares the same to it in both outfits. -/
theorem AlikeIn.declared_eq (h : o.AlikeIn slot view o') (hw : o.Approaches slot view w) :
    o.declaredClass? w.item = o'.declaredClass? w.item ∧
      o.covers w.item slot = o'.covers w.item slot := by
  by_cases hslot : w.slot = slot
  · exact h.declared w.layer w.item hw.admitted (hslot ▸ hw.worn)
  · obtain ⟨huses, hcovers⟩ := hw.reaches.resolve_left hslot
    have hcovers' := ((h.covered huses w hslot hw.admitted).1 ⟨hw.worn, hcovers⟩).2
    exact ⟨h.coveringClass huses w hslot hw.admitted hw.worn hcovers, hcovers.trans hcovers'.symm⟩

theorem classOf_congr (h : o.declaredClass? w.item = o'.declaredClass? w.item) :
    o.classOf w = o'.classOf w := by
  rw [classOf, classOf, prominence_eq_getD, prominence_eq_getD, h]

theorem standing_congr (h : o.classOf w = o'.classOf w) : o.standing slot w = o'.standing slot w := by
  rw [standing, standing, h]

theorem entry_congr (hclass : o.classOf w = o'.classOf w)
    (hcovers : o.covers w.item slot = o'.covers w.item slot) : o.entry slot w = o'.entry slot w := by
  rw [classOf, classOf] at hclass
  rw [entry, entry, contender, contender, hclass, hcovers]

/-- In both outfits the same items approach the slot, and they stand alike. -/
theorem AlikeIn.lineFor_eq (h : o.AlikeIn slot view o') : o.lineFor slot view = o'.lineFor slot view := by
  have hmem : ∀ w, w ∈ o.lineFor slot view ↔ w ∈ o'.lineFor slot view := by
    intro w
    rw [mem_lineFor, mem_lineFor, h.approaches_iff]
  have hstanding : ∀ w ∈ o'.lineFor slot view, o.standing slot w = o'.standing slot w := by
    intro w hw
    have hw' := (o.mem_lineFor slot view).1 ((hmem w).2 hw)
    exact standing_congr (classOf_congr (h.declared_eq hw').1)
  refine o.eq_of_pairwise_standing slot (o.pairwise_lineFor slot view) ?_ hmem
  refine (o'.pairwise_lineFor slot view).imp_of_mem fun {v w} hv hw hlt => ?_
  rwa [hstanding v hv, hstanding w hw]

theorem AlikeIn.shownItems_eq (h : o.AlikeIn slot view o') :
    o.shownItems tieBreak slot view = o'.shownItems tieBreak slot view := by
  rw [shownItems_eq_shown_lineFor, shownItems_eq_shown_lineFor, ← h.lineFor_eq]
  congr 1
  refine List.map_congr_left fun w hw => ?_
  obtain ⟨hclass, hcovers⟩ := h.declared_eq ((o.mem_lineFor slot view).1 hw)
  exact entry_congr (classOf_congr hclass) hcovers

/-- **Slots that are alike show alike.**  Let a slot hold the same items in two outfits, at the layers that a
view looks at, and let each declare the same class in both, if any, and cover the slot in both or in neither.
If the view respects coverage, let the slot also be covered from the same places by the same items with the
same classes.  Then the view shows the same items of the slot in both outfits, whatever else they hold and
declare, and however either is looked at. -/
theorem slots_alike_show_alike (h : o.AlikeIn slot view o') (l m : Ledger) :
    (o.lookAtSlot tieBreak slot view l).1.items = (o'.lookAtSlot tieBreak slot view m).1.items := by
  rw [items_lookAtSlot, items_lookAtSlot, h.shownItems_eq]

/-- Briefs, and nothing else. -/
def inBriefs : Outfit where
  items := .ofList [⟨"torso_lower", .underwear, "briefs"⟩]

/-- Briefs, and boots that cover the legs. -/
def inBriefsAndBoots : Outfit where
  items := .ofList [⟨"torso_lower", .underwear, "briefs"⟩, ⟨"feet", .outer, "boots"⟩]
  coverage := .ofList [("boots", ⟨["legs"], .outer⟩)]

/-- For the sake of the boots, the briefs are ranked instead of being read off their layer; they are shown
all the same. -/
theorem boots_leave_briefs_alone :
    inBriefs.AlikeIn "torso_lower" .all inBriefsAndBoots ∧
    inBriefs.strategy "torso_lower" .all = .layerRead ∧
    inBriefsAndBoots.strategy "torso_lower" .all = .ranked ∧
    (inBriefs.lookAtSlot .slotOrder "torso_lower" .all { scores := default }).1.items
      = (inBriefsAndBoots.lookAtSlot .slotOrder "torso_lower" .all { scores := default }).1.items := by
  have hbriefs : inBriefs.items.toList = [⟨"torso_lower", .underwear, "briefs"⟩] := by decide
  -- Neither outfit declares anything that covers the slot.
  have hcovers : ∀ item, inBriefs.covers item "torso_lower" = false :=
    covers_eq_false (by decide)
  have hcovers' : ∀ item, inBriefsAndBoots.covers item "torso_lower" = false :=
    covers_eq_false (by decide)
  have halike : inBriefs.AlikeIn "torso_lower" .all inBriefsAndBoots :=
    { held := by
        intro layer _
        cases layer <;> decide
      declared := by
        intro layer item _ hworn
        have hmem : ⟨"torso_lower", layer, item⟩ ∈ inBriefs.items.toList :=
          Equipment.mem_toList_iff.2 hworn
        rw [hbriefs, List.mem_singleton] at hmem
        cases hmem
        decide
      covered := by
        intro _ w _ _
        simp [hcovers, hcovers']
      coveringClass := by
        intro _ w _ _ _ hw
        exact absurd ((hcovers w.item).symm.trans hw) Bool.false_ne_true }
  exact ⟨halike, by decide, by decide, slots_alike_show_alike halike _ _⟩

end Outfit

end EntityQuery.Attire
