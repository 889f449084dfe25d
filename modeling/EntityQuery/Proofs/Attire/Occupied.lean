import EntityQuery.Attire.BodySlot
import EntityQuery.Proofs.Attire.Worn
import EntityQuery.Proofs.Support.Attempt
import EntityQuery.World.Outfit
import Mathlib.Data.List.Sort

/-!
# Occupied slots

A slot is occupied if something is worn in it, at whatever layer.  Equipment that is read from component
data keeps no other slots (`Equipment.full_of_ofJson?`), and so does the outfit of an entity, whatever its
items declare (`World.full_of_outfit`).  The slots that a look at such an outfit goes through are then the
occupied ones, by name (`Outfit.occupies_iff`).
-/

namespace EntityQuery

open Attire

namespace Attire.Equipment

variable {e : Equipment}

/-- Something is worn in each slot that is kept. -/
def Full (e : Equipment) : Prop :=
  ∀ slot ∈ e.slotNames, ∃ layer item, e.itemAt? slot layer = some item

theorem Full.mem_slotNames_iff (h : e.Full) {slot : String} :
    slot ∈ e.slotNames ↔ ∃ layer item, e.itemAt? slot layer = some item :=
  ⟨h slot, fun ⟨_, _, hworn⟩ => mem_slotNames_of_worn hworn⟩

theorem get?_slots (e : Equipment) (slot : String) :
    e.slots.get? slot = if slot ∈ e.slotNames then some (e.inSlot slot) else none := by
  split
  · rename_i hslot
    obtain ⟨x, hx, rfl⟩ := List.mem_map.1 hslot
    rw [inSlot_of_mem hx]
    exact e.slots.ascending.get?_of_mem hx
  · rename_i hslot
    refine Option.eq_none_iff_forall_ne_some.2 fun items hitems => hslot ?_
    exact List.mem_map_of_mem (Entries.mem_of_get? hitems)

/-- Where no slot is kept for nothing, equipment is determined by what is worn. -/
theorem Full.ext {e' : Equipment} (h : e.Full) (h' : e'.Full) (hworn : ∀ w, w ∈ e.toList ↔ w ∈ e'.toList) :
    e = e' := by
  have hitem : ∀ slot layer, e.itemAt? slot layer = e'.itemAt? slot layer := fun slot layer =>
    Option.ext fun item => by simpa only [mem_toList_iff] using hworn ⟨slot, layer, item⟩
  have hslots : ∀ slot, slot ∈ e.slotNames ↔ slot ∈ e'.slotNames := fun slot => by
    rw [h.mem_slotNames_iff, h'.mem_slotNames_iff]
    simp only [hitem]
  have heq : e.slots = e'.slots := Table.ext_get? fun slot => by
    have hinSlot : e.inSlot slot = e'.inSlot slot := SlotItems.ext_get? (hitem slot)
    simp only [get?_slots, hslots, hinSlot]
  obtain ⟨slots⟩ := e
  exact congrArg Equipment.mk heq

theorem full_empty : (∅ : Equipment).Full :=
  nofun

theorem Full.equip (h : e.Full) (slot : String) (layer : Layer) (item : ItemId) :
    (e.equip slot layer item).Full := by
  intro name hname
  by_cases hslot : name = slot
  · exact ⟨layer, item, by simp [hslot]⟩
  · obtain ⟨x, hx, rfl⟩ := List.mem_map.1 hname
    rcases Entries.mem_insert hx with rfl | hx
    · exact (hslot rfl).elim
    · obtain ⟨layer', item', hworn⟩ := h x.1 (List.mem_map_of_mem hx)
      exact ⟨layer', item', by simpa [hslot] using hworn⟩

theorem full_ofList (worn : List Worn) : (ofList worn).Full := by
  suffices ∀ e : Equipment, e.Full →
      (worn.foldl (fun e w => e.equip w.slot w.layer w.item) e).Full from this ∅ full_empty
  induction worn with
  | nil            => exact fun _ h => h
  | cons w worn ih => exact fun e h => ih _ (h.equip w.slot w.layer w.item)

theorem full_of_ofJson? {v : Json} (h : ofJson? v = .ok e) : e.Full := by
  cases v with
  | null      => cases h; exact full_empty
  | obj slots => cases h; exact full_ofList _
  | _         => cases h

theorem pairwise_slotNames (e : Equipment) : e.slotNames.Pairwise (· < ·) :=
  List.pairwise_map.2 e.slots.ascending

end Attire.Equipment

/-! ### Outfits -/

namespace World

variable {w : World} {o o' : Outfit}

theorem items_of_withCoverage {item : ItemId} (h : w.withCoverage o item = .ok o') :
    o'.items = o.items := by
  obtain ⟨data?, -, h⟩ := Attempt.bind_eq_ok.1 h
  cases data? with
  | none      => cases h; rfl
  | some data =>
      dsimp only at h
      split at h <;> cases h <;> rfl

/-- What the items declare does not change what is worn. -/
theorem items_of_outfitOf {items : Equipment} (h : w.outfitOf items = .ok o) : o.items = items := by
  have hstep : ∀ (o : Outfit) (x : Equipment.Worn) (o' : Outfit),
      o.items = items → w.withCoverage o x.item = .ok o' → o'.items = items :=
    fun _ _ _ ho hx => (items_of_withCoverage hx).trans ho
  exact Attempt.foldlM_preserves (P := fun o => o.items = items) hstep rfl h

theorem full_of_outfit {id : EntityId} (h : w.outfit id = .ok o) : o.items.Full := by
  obtain ⟨data?, -, h⟩ := Attempt.bind_eq_ok.1 h
  split at h
  · cases h
    exact Equipment.full_empty
  · split at h
    · cases h
      exact Equipment.full_empty
    · rename_i hitems
      rw [items_of_outfitOf h]
      exact Equipment.full_of_ofJson? hitems

end World

namespace Attire.Outfit

variable {o : Outfit} {slots : List BodySlot}

/-- The slots in which something is worn are these, all of which a query can name.  They are listed by
name. -/
structure Occupies (o : Outfit) (slots : List BodySlot) : Prop where
  ascending : slots.Pairwise (·.name < ·.name)
  mem_iff : ∀ name, name ∈ slots.map BodySlot.name ↔ ∃ layer item, o.items.itemAt? name layer = some item

theorem occupies_iff (h : o.items.Full) :
    o.Occupies slots ↔ o.items.slotNames = slots.map BodySlot.name := by
  constructor
  · intro hslots
    have hnames : (slots.map BodySlot.name).Pairwise (· < ·) := List.pairwise_map.2 hslots.ascending
    exact o.items.pairwise_slotNames.eq_of_mem_iff hnames fun name =>
      h.mem_slotNames_iff.trans (hslots.mem_iff name).symm
  · intro hnames
    refine ⟨List.pairwise_map.1 (hnames ▸ o.items.pairwise_slotNames), fun name => ?_⟩
    rw [← hnames]
    exact h.mem_slotNames_iff

end Attire.Outfit

end EntityQuery
