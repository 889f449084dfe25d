import EntityQuery.Attire.Visibility
import Mathlib.Data.List.Nodup
import Mathlib.Data.Prod.Lex
import Mathlib.Data.String.Basic

/-!
# What is worn

An item is worn in a slot and at a layer, its place.  Equipment holds at most one item at each place, and
`Equipment.toList` goes through the places that hold one in ascending order: by the name of the slot, and
within a slot from the outermost layer inwards (`pairwise_toList`).  It lists what `itemAt?` says is worn,
and nothing else (`mem_toList_iff`).
-/

namespace EntityQuery.Attire

namespace Layer

theorem depth_injective : Function.Injective depth := by
  intro a b h
  cases a <;> cases b <;> first | rfl | cases h

theorem pairwise_all : all.Pairwise (·.depth < ·.depth) := by
  decide

end Layer

/-! ### The layers of a set -/

namespace LayerSet

theorem mem_ordered {s : LayerSet} {layer : Layer} : layer ∈ s.ordered ↔ s.admits layer := by
  simp [ordered, Layer.mem_all]

end LayerSet

/-! ### Places -/

namespace SlotItems

theorem pairwise_toList (s : SlotItems) : s.toList.Pairwise (·.1.depth < ·.1.depth) := by
  refine List.pairwise_filterMap.2 (Layer.pairwise_all.imp ?_)
  intro a b hab x hx y hy
  obtain ⟨i, -, rfl⟩ := Option.map_eq_some_iff.1 hx
  obtain ⟨j, -, rfl⟩ := Option.map_eq_some_iff.1 hy
  exact hab

end SlotItems

namespace Equipment

/-- Where an item is worn, for comparison: by slot, and within a slot by layer. -/
def Worn.place (w : Worn) : String ×ₗ Nat :=
  toLex (w.slot, w.layer.depth)

theorem Worn.place_lt {a b : Worn} :
    a.place < b.place ↔ a.slot < b.slot ∨ a.slot = b.slot ∧ a.layer.depth < b.layer.depth :=
  Prod.Lex.toLex_lt_toLex

theorem Worn.place_eq_iff {a b : Worn} : a.place = b.place ↔ a.slot = b.slot ∧ a.layer = b.layer := by
  rw [place, place, toLex_inj, Prod.mk.injEq, Layer.depth_injective.eq_iff]

variable (e : Equipment) (slot : String)

theorem inSlot_of_mem {e : Equipment} {x : String × SlotItems} (hx : x ∈ e.slots.entries) :
    e.inSlot x.1 = x.2 := by
  rw [inSlot, Table.get?, e.slots.ascending.get?_of_mem hx, Option.getD_some]

/-- `toList` lists what is worn, and nothing else. -/
theorem mem_toList_iff {e : Equipment} {w : Worn} :
    w ∈ e.toList ↔ e.itemAt? w.slot w.layer = some w.item := by
  obtain ⟨slot, layer, item⟩ := w
  simp only [toList, List.mem_flatMap, List.mem_map, Prod.exists]
  constructor
  · rintro ⟨s, items, hs, l, i, hl, h⟩
    cases h
    rw [itemAt?, inSlot_of_mem hs]
    exact SlotItems.mem_toList.1 hl
  · intro h
    rw [itemAt?, inSlot] at h
    -- A slot without an entry holds nothing at any layer.
    cases hs : e.slots.get? slot with
    | none =>
        rw [hs, Option.getD_none] at h
        cases layer <;> cases h
    | some items =>
        rw [hs, Option.getD_some] at h
        exact ⟨slot, items, Entries.mem_of_get? hs, layer, item, SlotItems.mem_toList.2 h, rfl⟩

/-- A slot in which something is worn is kept. -/
theorem mem_slotNames_of_worn {e : Equipment} {slot : String} {layer : Layer} {item : ItemId}
    (h : e.itemAt? slot layer = some item) : slot ∈ e.slotNames := by
  have hworn : ⟨slot, layer, item⟩ ∈ e.toList := mem_toList_iff.2 h
  obtain ⟨x, hx, hw⟩ := List.mem_flatMap.1 hworn
  obtain ⟨y, -, hy⟩ := List.mem_map.1 hw
  exact List.mem_map.2 ⟨x, hx, congrArg Worn.slot hy⟩

/-- `toList` goes from place to place in ascending order. -/
theorem pairwise_toList : e.toList.Pairwise (·.place < ·.place) := by
  refine List.pairwise_flatMap.2 ⟨fun x _ => ?_, e.slots.ascending.imp ?_⟩
  · refine List.pairwise_map.2 (x.2.pairwise_toList.imp ?_)
    intro a b hab
    exact Worn.place_lt.2 (.inr ⟨rfl, hab⟩)
  · intro x y hxy a ha b hb
    obtain ⟨_, -, rfl⟩ := List.mem_map.1 ha
    obtain ⟨_, -, rfl⟩ := List.mem_map.1 hb
    exact Worn.place_lt.2 (.inl hxy)

theorem nodup_toList : e.toList.Nodup :=
  (pairwise_toList e).imp fun h heq => absurd (heq ▸ h) (lt_irrefl _)

/-- Nothing else is worn at the place of an item. -/
theorem eq_of_mem_toList {e : Equipment} {v w : Worn} (hv : v ∈ e.toList) (hw : w ∈ e.toList)
    (hslot : v.slot = w.slot) (hlayer : v.layer = w.layer) : v = w := by
  obtain ⟨s, l, i⟩ := v
  obtain ⟨t, m, j⟩ := w
  obtain rfl : s = t := hslot
  obtain rfl : l = m := hlayer
  have hi : e.itemAt? s l = some i := mem_toList_iff.1 hv
  have hj : e.itemAt? s l = some j := mem_toList_iff.1 hw
  obtain rfl : i = j := Option.some.inj (hi.symm.trans hj)
  rfl

/-! ### Items put on -/

theorem mem_toList_equip {e : Equipment} {v w : Worn} :
    w ∈ (e.equip v.slot v.layer v.item).toList ↔ w = v ∨ w.place ≠ v.place ∧ w ∈ e.toList := by
  rw [mem_toList_iff, mem_toList_iff, itemAt?_equip, ne_eq, Worn.place_eq_iff]
  by_cases h : w.slot = v.slot ∧ w.layer = v.layer
  · rw [if_pos h]
    obtain ⟨slot, layer, item⟩ := w
    obtain ⟨rfl, rfl⟩ := h
    constructor
    · intro hitem
      cases hitem
      exact .inl rfl
    · rintro (hw | ⟨hplace, -⟩)
      · exact congrArg (fun w => some w.item) hw.symm
      · exact absurd ⟨rfl, rfl⟩ hplace
  · rw [if_neg h]
    constructor
    · exact fun hworn => .inr ⟨h, hworn⟩
    · rintro (rfl | ⟨-, hworn⟩)
      · exact absurd ⟨rfl, rfl⟩ h
      · exact hworn

/-- Items for different places, put on one after the other, do not get in each other's way. -/
theorem mem_toList_foldl_equip {w : Worn} :
    ∀ {ws : List Worn} (e : Equipment), ws.Pairwise (·.place ≠ ·.place) →
      (w ∈ (ws.foldl (fun e v => e.equip v.slot v.layer v.item) e).toList ↔
        w ∈ ws ∨ (∀ v ∈ ws, w.place ≠ v.place) ∧ w ∈ e.toList)
  | [],      e, _   => by simp
  | v :: ws, e, hws => by
      obtain ⟨hv, hws⟩ := List.pairwise_cons.1 hws
      rw [List.foldl_cons, mem_toList_foldl_equip _ hws, mem_toList_equip, List.mem_cons,
        List.forall_mem_cons]
      constructor
      · rintro (hw | ⟨hother, rfl | ⟨hne, hw⟩⟩)
        · exact .inl (.inr hw)
        · exact .inl (.inl rfl)
        · exact .inr ⟨⟨hne, hother⟩, hw⟩
      · rintro ((rfl | hw) | ⟨⟨hne, hother⟩, hw⟩)
        · exact .inr ⟨hv, .inl rfl⟩
        · exact .inl hw
        · exact .inr ⟨hother, .inr ⟨hne, hw⟩⟩

theorem mem_toList_ofList {ws : List Worn} (hws : ws.Pairwise (·.place ≠ ·.place)) {w : Worn} :
    w ∈ (ofList ws).toList ↔ w ∈ ws := by
  rw [ofList, mem_toList_foldl_equip ∅ hws]
  exact or_iff_left fun h => absurd h.2 List.not_mem_nil

/-! ### The layers of one slot -/

theorem mem_occupiedIn {e : Equipment} {slot : String} {admitted : LayerSet} {layer : Layer}
    {item : ItemId} :
    (layer, item) ∈ e.occupiedIn slot admitted ↔
      e.itemAt? slot layer = some item ∧ admitted.admits layer := by
  rw [occupiedIn, List.mem_filter, occupied, SlotItems.mem_toList, itemAt?]

theorem pairwise_occupiedIn (admitted : LayerSet) :
    (e.occupiedIn slot admitted).Pairwise (·.1.depth < ·.1.depth) :=
  (e.inSlot slot).pairwise_toList.filter _

end Equipment

end EntityQuery.Attire
