import EntityQuery.Proofs.Attire.Finding
import EntityQuery.Proofs.Resolution.SlotUnion

/-!
# Slots in which nothing is worn

A step to a slot looks at the slot even if nothing is worn in it.  A view that respects coverage then shows
what covers the slot from elsewhere.  The array form does not look there: it goes through the slots in which
something is worn.

* `Outfit.Vacant.approaches_iff`: a slot in which nothing is worn is approached by what covers it.
* `Asking.vacant_slots_show_what_covers_them`: so this is what a step to such a slot contributes, while of
  all other slots it contributes nothing that the array form does not.
-/

namespace EntityQuery

open Attire (BodySlot ItemId Outfit Strategy)

namespace Attire.Outfit

open Equipment (Worn)

variable (o : Outfit) {slot : String} {view : View} {w : Worn}

/-- Nothing is worn in the slot, at whatever layer. -/
def Vacant (slot : String) : Prop :=
  ∀ layer, o.items.itemAt? slot layer = none

/-- Under `view`, `w` is worn and covers the slot. -/
structure Overhangs (slot : String) (view : View) (w : Worn) : Prop where
  worn : w ∈ o.items.toList
  admitted : view.layers.admits w.layer
  respected : view.usesCoverage
  covers : o.covers w.item slot

variable {o}

theorem Vacant.approaches_iff (h : o.Vacant slot) : o.Approaches slot view w ↔ o.Overhangs slot view w := by
  constructor
  · rintro ⟨hworn, hadmits, hslot | ⟨huses, hcovers⟩⟩
    · rw [hslot, h w.layer] at hworn
      cases hworn
    · exact ⟨Equipment.mem_toList_iff.2 hworn, hadmits, huses, hcovers⟩
  · exact fun h => ⟨Equipment.mem_toList_iff.1 h.worn, h.admitted, .inr ⟨h.respected, h.covers⟩⟩

/-- Something is worn in a slot that is not vacant. -/
theorem mem_slotNames_of_not_vacant (h : ¬ o.Vacant slot) : slot ∈ o.items.slotNames := by
  obtain ⟨layer, hlayer⟩ := not_forall.1 h
  obtain ⟨item, hitem⟩ := Option.ne_none_iff_exists'.1 hlayer
  exact Equipment.mem_slotNames_of_worn hitem

end Attire.Outfit

namespace Asking

variable (a : Asking)

/-- **A slot in which nothing is worn shows what covers it.**  Of a descriptor, a step to such a slot
contributes nothing unless something that the view looks at is worn elsewhere and covers the slot, and the
view respects coverage; it contributes only such items.  Of any other slot it contributes nothing that the
array form of the same view does not contribute for the owner, as long as it is the same outfit. -/
theorem vacant_slots_show_what_covers_them (slot : BodySlot) (d : Descriptor) :
    let o := d.outfit
    ∃ items : List ItemId,
      (∀ run, ∃ report, (a.viewSlot slot (.descriptor d)).result run = .ok ⟨items.map .entity, report⟩) ∧
      (o.Vacant slot.name →
        (items = [] ↔ ¬ ∃ w, o.Overhangs slot.name d.view w) ∧
        ∀ item ∈ items, ∃ w, o.Overhangs slot.name d.view w ∧ w.slot ≠ slot.name ∧ w.item = item) ∧
      (¬ o.Vacant slot.name → a.scene.world.outfit d.owner = .ok o → ∀ run,
        ∃ found report, (a.viewOutfit d.view true (.entity d.owner)).result run = .ok ⟨found, report⟩ ∧
          items.map .entity ⊆ found) := by
  intro o
  refine ⟨o.shownItems a.settings.tieBreak slot.name d.view, fun run => ?_, fun hvacant => ⟨?_, ?_⟩, ?_⟩
  · obtain ⟨r, hr, hfound⟩ := a.viewSlot_finds slot (.descriptor d)
    cases r with
    | error e => cases hfound
    | ok k    =>
        refine ⟨k.report, (hr.result_eq run).trans ?_⟩
        rw [← Except.ok.inj hfound]
  · rw [o.shownItems_eq_nil_iff, not_exists]
    exact forall_congr' fun w => hvacant.approaches_iff.not
  · intro item hitem
    obtain ⟨w, hw, hwitem⟩ := o.exists_approaching a.settings.tieBreak hitem
    refine ⟨w, hvacant.approaches_iff.1 hw, ?_, hwitem⟩
    rintro hslot
    have hworn := hw.worn
    rw [hslot, hvacant w.layer] at hworn
    cases hworn
  · intro hoccupied houtfit run
    obtain ⟨r, hr, hfound⟩ := a.viewOutfit_finds d.view true (.entity d.owner)
    rw [foundInView, houtfit] at hfound
    cases r with
    | error e => cases hfound
    | ok k    =>
        have hk : k.found = (o.finding a.settings.tieBreak d.view).items.map .entity := Except.ok.inj hfound
        refine ⟨k.found, k.report, hr.result_eq run, ?_⟩
        rw [hk]
        exact List.map_subset _ (o.shownItems_subset_finding a.settings.tieBreak
          (Outfit.mem_slotNames_of_not_vacant hoccupied))

end Asking

/-- A coat that reaches down over the trousers, and trousers that reach up. -/
def coatOverTrousers : Store :=
  let equipped := [("legs", Json.object [("outer", .str "trousers")]),
    ("torso_upper", .object [("outer", .str "coat")])]
  (((∅ : Store).insert "hero" equipmentComponent (.object [("equipped", .object equipped)])).insert
    "coat" coverageComponent
      (.object [("covers", .arr [.str "legs"]), ("coveragePriority", .str "outer")])).insert
    "trousers" coverageComponent
      (.object [("covers", .arr [.str "torso_lower"]), ("coveragePriority", .str "base")])

/-- A slot in which nothing is worn has something to contribute, since the trousers overhang it; the slot of the
coat contributes nothing but what the array form does. -/
theorem Asking.coat_and_trousers_are_contributed :
    let a : Asking := { actor := "hero", scene := { world := coatOverTrousers.world } }
    let run : Run := { scores := default }
    let trousers : Attire.Equipment.Worn := ⟨"legs", .outer, "trousers"⟩
    ∃ o, a.scene.world.outfit "hero" = .ok o ∧
      o.Vacant BodySlot.torsoLower.name ∧ o.Overhangs BodySlot.torsoLower.name .topmost trousers ∧
      ¬ o.Vacant BodySlot.torsoUpper.name ∧
      (∃ (items : List ItemId) (report : Option Strategy),
        (a.viewSlot .torsoLower (.descriptor ⟨"hero", .topmost, o⟩)).result run =
          .ok ⟨items.map .entity, report⟩ ∧
        items ≠ []) ∧
      ∃ (items : List ItemId) (report : Option Strategy) (found : List Candidate) (counts : SlotCount),
        (a.viewSlot .torsoUpper (.descriptor ⟨"hero", .topmost, o⟩)).result run =
          .ok ⟨items.map .entity, report⟩ ∧
        (a.viewOutfit .topmost true (.entity "hero")).result run = .ok ⟨found, counts⟩ ∧
        items.map .entity ⊆ found := by
  intro a run trousers
  obtain ⟨o, ho, hvacant, htrousers, hcoat⟩ : ∃ o, a.scene.world.outfit "hero" = .ok o ∧
      o.Vacant BodySlot.torsoLower.name ∧ o.Overhangs BodySlot.torsoLower.name .topmost trousers ∧
      ¬ o.Vacant BodySlot.torsoUpper.name :=
    ⟨_, rfl, fun layer => by cases layer <;> rfl,
      ⟨by decide, by decide, by decide, by decide⟩, fun h => nomatch h .outer⟩
  let d : Descriptor := ⟨"hero", .topmost, o⟩
  obtain ⟨items, hlower, hempty, -⟩ := a.vacant_slots_show_what_covers_them .torsoLower d
  obtain ⟨items', hupper, -, hfound⟩ := a.vacant_slots_show_what_covers_them .torsoUpper d
  obtain ⟨report, hresult⟩ := hlower run
  obtain ⟨report', hresult'⟩ := hupper run
  obtain ⟨found, counts, harray, hsubset⟩ := hfound hcoat ho run
  have hshown : items ≠ [] := fun hnil => ((hempty hvacant).1.1 hnil) ⟨trousers, htrousers⟩
  exact ⟨o, ho, hvacant, htrousers, hcoat, ⟨items, report, hresult, hshown⟩,
    items', report', found, counts, hresult', harray, hsubset⟩

/-- Nothing is worn in the slot that the trousers reach up to.  There they are shown, while the array form
shows nothing but the coat. -/
theorem Engine.trousers_are_shown_where_nothing_is_worn :
    let outcome := fun q =>
      ((Engine.mk {} .standard default).ask q "hero" { world := coatOverTrousers.world } false).1.outcome
    (∃ o, coatOverTrousers.world.outfit "hero" = .ok o ∧ o.Vacant BodySlot.torsoLower.name) ∧
    outcome (.attireIn .topmost .torsoLower) = .ok ⟨[.entity "trousers"]⟩ ∧
    outcome (.attire .topmost) = .ok ⟨[.entity "coat"]⟩ := by
  refine ⟨⟨_, rfl, fun layer => ?_⟩, by decide +kernel, by decide +kernel⟩
  cases layer <;> rfl

end EntityQuery
