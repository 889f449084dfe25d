import EntityQuery.Proofs.Attire.Occupied
import EntityQuery.Proofs.Json.Canonical
import Mathlib.Data.Set.Card

/-!
# Equipment that data describes

Component data describes an item at a slot and layer if the member of the slot's name is an object, and in
it the member of the layer's name is a text (`Equipment.Describes`).  Whatever else there is beside it, in
the slot or in other slots, does not matter:

* `Equipment.mem_toList_of_ofJson?`: what is read is what is described, and nothing else.
* `Equipment.ofJson?_writtenSlots`: the slots of the written form describe the equipment that was written, so
  component data and the written form agree.
* `Equipment.reads_what_is_described`: both together, and what follows for the slots and for the counts.
-/

namespace EntityQuery

namespace Attire

theorem Layer.name_injective : Function.Injective Layer.name := by
  intro a b h
  have hname : ofName? a.name = ofName? b.name := congrArg ofName? h
  rwa [ofName?_name, ofName?_name, Option.some.injEq] at hname

namespace Equipment

/-- Data says that an item is worn at a slot and layer: there is an object at the slot's name, and in it the
item is at the layer's name. -/
inductive Describes : Json → Worn → Prop where
  | entry {slots layers : List (String × Json)} {slot : String} {layer : Layer} {item : ItemId}
      (hslot : Entries.get? slot slots = some (.obj layers))
      (hlayer : Entries.get? layer.name layers = some (.str item)) :
      Describes (.obj slots) ⟨slot, layer, item⟩

variable {v : Json} {e e' : Equipment} {w : Worn}

/-! ### What is read -/

theorem layerBinding?_eq_some {entry : String × Json} {layer : Layer} {item : ItemId} :
    layerBinding? entry = some (layer, item) ↔ entry = (layer.name, .str item) := by
  obtain ⟨key, value⟩ := entry
  constructor
  · intro h
    cases value with
    | str s                                  =>
        obtain ⟨l, hl, ⟨⟩⟩ := Option.map_eq_some_iff.1 h
        rw [Layer.name_of_ofName? hl]
    | null | bool _ | num _ | arr _ | obj _ => cases h
  · rintro ⟨⟩
    simp [layerBinding?]

theorem mem_slotBindings {slot : String} {data : Json} :
    w ∈ slotBindings (slot, data) ↔
      slot = w.slot ∧ ∃ layers, data = .obj layers ∧ (w.layer.name, .str w.item) ∈ layers := by
  obtain ⟨s, layer, item⟩ := w
  cases data with
  | obj layers                             =>
      simp only [slotBindings, List.mem_map, List.mem_filterMap, Prod.exists]
      constructor
      · rintro ⟨l, i, ⟨key, value, hmem, hbinding⟩, ⟨⟩⟩
        rw [layerBinding?_eq_some] at hbinding
        exact ⟨rfl, layers, rfl, hbinding ▸ hmem⟩
      · rintro ⟨rfl, layers', ⟨⟩, hmem⟩
        exact ⟨layer, item, ⟨_, _, hmem, layerBinding?_eq_some.2 rfl⟩, rfl⟩
  | null | bool _ | num _ | str _ | arr _ =>
      refine ⟨fun h => absurd h List.not_mem_nil, ?_⟩
      rintro ⟨-, layers, ⟨⟩, -⟩

/-- In a canonical value the bindings are what it describes. -/
theorem mem_bindings_iff (hv : v.Canonical) : w ∈ bindings v ↔ Describes v w := by
  cases hv with
  | null | bool _ | num _ | str _ | arr _ _ =>
      exact ⟨fun h => absurd h List.not_mem_nil, nofun⟩
  | obj slots hslots hcanonical             =>
      simp only [bindings, List.mem_flatMap, Prod.exists, mem_slotBindings]
      constructor
      · rintro ⟨slot, data, hslot, rfl, layers, rfl, hlayer⟩
        cases hcanonical _ hslot with
        | obj _ hlayers _ =>
            exact .entry (hslots.mem_iff_get?.1 hslot) (hlayers.mem_iff_get?.1 hlayer)
      · rintro ⟨hslot, hlayer⟩
        exact ⟨_, _, Entries.mem_of_get? hslot, rfl, _, rfl, Entries.mem_of_get? hlayer⟩

/-- In a canonical value no two bindings are for one place. -/
theorem pairwise_bindings (hv : v.Canonical) : (bindings v).Pairwise (·.place ≠ ·.place) := by
  cases hv with
  | null | bool _ | num _ | str _ | arr _ _ => exact .nil
  | obj slots hslots hcanonical             =>
      refine List.pairwise_flatMap.2 ⟨fun entry hentry => ?_, hslots.imp ?_⟩
      · obtain ⟨slot, data⟩ := entry
        cases hcanonical _ hentry with
        | null | bool _ | num _ | str _ | arr _ _ => exact .nil
        | obj layers hlayers _                    =>
            refine List.pairwise_map.2 (List.pairwise_filterMap.2 (hlayers.imp ?_))
            intro x y hxy a ha b hb heq
            have hlayer : a.1 = b.1 := (Worn.place_eq_iff.1 heq).2
            rw [layerBinding?_eq_some.1 ha, layerBinding?_eq_some.1 hb, hlayer] at hxy
            exact String.lt_irrefl _ hxy
      · intro x y hxy a ha b hb heq
        rw [(mem_slotBindings.1 ha).1, (mem_slotBindings.1 hb).1, (Worn.place_eq_iff.1 heq).1] at hxy
        exact String.lt_irrefl _ hxy

/-- **What is read is what is described.** -/
theorem mem_toList_of_ofJson? (hv : v.Canonical) (h : ofJson? v = .ok e) :
    w ∈ e.toList ↔ Describes v w := by
  cases v with
  | null                          =>
      cases h
      exact ⟨fun h => absurd h List.not_mem_nil, nofun⟩
  | obj slots                     =>
      cases h
      exact (mem_toList_ofList (pairwise_bindings hv)).trans (mem_bindings_iff hv)
  | bool _ | num _ | str _ | arr _ => cases h

/-- Only what is neither `null` nor an object is refused, and its kind is told. -/
theorem ofJson?_eq_error {err : AttireError} :
    ofJson? v = .error err ↔
      err = .malformedEquipment v.kind ∧ v ≠ .null ∧ ∀ members, v ≠ .obj members := by
  cases v <;> simp [ofJson?, eq_comm]

/-- Data that is refused describes nothing, so nothing is lost where none is taken for it. -/
theorem mem_toList_getD (hv : v.Canonical) : w ∈ ((ofJson? v).toOption.getD ∅).toList ↔ Describes v w := by
  cases hread : ofJson? v with
  | ok e      => exact mem_toList_of_ofJson? hv hread
  | error err =>
      refine ⟨fun h => absurd h List.not_mem_nil, fun h => ?_⟩
      cases h
      cases hread

/-! ### What was written -/

/-- The items of a slot in the written form. -/
def writtenSlot (items : SlotItems) : Json :=
  .object (items.toList.map fun x => (x.1.name, .str x.2))

/-- The slots in the written form. -/
def writtenSlots (e : Equipment) : Json :=
  .obj (e.slots.entries.map fun x => (x.1, writtenSlot x.2))

theorem toJson_eq (e : Equipment) : e.toJson = .object [("slots", e.writtenSlots)] := rfl

theorem canonical_writtenSlot (items : SlotItems) : (writtenSlot items).Canonical := by
  refine Json.canonical_object fun m hm => ?_
  obtain ⟨x, -, rfl⟩ := List.mem_map.1 hm
  exact .str x.2

theorem canonical_writtenSlots (e : Equipment) : e.writtenSlots.Canonical := by
  refine .obj _ (List.pairwise_map.2 e.slots.ascending) fun m hm => ?_
  obtain ⟨x, -, rfl⟩ := List.mem_map.1 hm
  exact canonical_writtenSlot x.2

theorem writtenSlot_eq_obj {items : SlotItems} {layers : List (String × Json)} {layer : Layer} {item : ItemId}
    (h : writtenSlot items = .obj layers) :
    Entries.get? layer.name layers = some (.str item) ↔ items.get? layer = some item := by
  cases h
  have hnames : (items.toList.map fun x => (x.1.name, Json.str x.2)).Pairwise (·.1 ≠ ·.1) := by
    refine List.pairwise_map.2 (items.pairwise_toList.imp fun hab heq => ?_)
    rw [Layer.name_injective heq] at hab
    exact Nat.lt_irrefl _ hab
  rw [Entries.get?_ofList hnames, List.mem_map, ← SlotItems.mem_toList]
  constructor
  · rintro ⟨⟨l, i⟩, hmem, heq⟩
    obtain ⟨hname, hitem⟩ := Prod.mk.inj heq
    cases Layer.name_injective hname
    cases hitem
    exact hmem
  · exact fun hmem => ⟨_, hmem, rfl⟩

/-- The slots of the written form describe what was written. -/
theorem describes_writtenSlots : Describes e.writtenSlots w ↔ w ∈ e.toList := by
  obtain ⟨slot, layer, item⟩ := w
  rw [mem_toList_iff, itemAt?, inSlot, Table.get?]
  constructor
  · rintro ⟨hslot, hlayer⟩
    rw [Entries.get?_map] at hslot
    obtain ⟨items, hitems, hwritten⟩ := Option.map_eq_some_iff.1 hslot
    rw [hitems]
    exact (writtenSlot_eq_obj hwritten).1 hlayer
  · intro hworn
    cases hitems : Entries.get? slot e.slots.entries with
    | none       =>
        rw [hitems] at hworn
        cases layer <;> cases hworn
    | some items =>
        rw [hitems] at hworn
        have hslot : Entries.get? slot (e.slots.entries.map fun x => (x.1, writtenSlot x.2)) =
            some (writtenSlot items) := by
          rw [Entries.get?_map, hitems]
          rfl
        exact .entry hslot ((writtenSlot_eq_obj rfl).2 hworn)

/-- **The slots of the written form are read as the equipment that was written**, if none of its slots is
empty. -/
theorem ofJson?_writtenSlots (h : e.Full) : ofJson? e.writtenSlots = .ok e := by
  obtain ⟨e', he'⟩ : ∃ e', ofJson? e.writtenSlots = .ok e' := ⟨_, rfl⟩
  have hworn : ∀ w, w ∈ e'.toList ↔ w ∈ e.toList := fun w =>
    (mem_toList_of_ofJson? e.canonical_writtenSlots he').trans describes_writtenSlots
  rw [he', (full_of_ofJson? he').ext h hworn]

/-! ### Both together -/

theorem size_eq_ncard (hv : v.Canonical) (h : ofJson? v = .ok e) : e.size = {w | Describes v w}.ncard := by
  have hset : {w | Describes v w} = ↑e.toList.toFinset := by
    ext w
    simp [mem_toList_of_ofJson? hv h]
  rw [hset, Set.ncard_coe_finset, List.toFinset_card_of_nodup e.nodup_toList, size]

/-- **What is read of component data is what it describes.**  Canonical data, as all data is that a text
denotes, is refused if it is neither `null` nor an object.  Else, whatever there is in it:

* the item at a slot and layer is the one that the data has there, if that is an item in a slot;
* the slots are those in which the data describes an item, in ascending order, and there are as many items
  as it describes.

And of whatever was put on, one item after the other, the written form is a record whose slots are read as
the same equipment. -/
theorem reads_what_is_described (v : Json) (hv : v.Canonical) (worn : List Worn) :
    (∀ err, ofJson? v = .error err ↔
      err = .malformedEquipment v.kind ∧ v ≠ .null ∧ ∀ members, v ≠ .obj members) ∧
    (∀ e, ofJson? v = .ok e →
      (∀ slot layer item, e.itemAt? slot layer = some item ↔ Describes v ⟨slot, layer, item⟩) ∧
      e.slotNames.Pairwise (· < ·) ∧
      (∀ slot, slot ∈ e.slotNames ↔ ∃ layer item, Describes v ⟨slot, layer, item⟩) ∧
      e.size = {w | Describes v w}.ncard ∧ (e.isEmpty ↔ ∀ w, ¬ Describes v w)) ∧
    ∃ slots, (ofList worn).toJson = .object [("slots", slots)] ∧ ofJson? slots = .ok (ofList worn) := by
  refine ⟨fun err => ofJson?_eq_error, fun e he => ?_, _, toJson_eq _, ofJson?_writtenSlots (full_ofList worn)⟩
  have hitem : ∀ slot layer item, e.itemAt? slot layer = some item ↔ Describes v ⟨slot, layer, item⟩ :=
    fun slot layer item =>
      (mem_toList_iff (w := ⟨slot, layer, item⟩)).symm.trans (mem_toList_of_ofJson? hv he)
  refine ⟨hitem, e.pairwise_slotNames, fun slot => ?_, size_eq_ncard hv he, ?_⟩
  · simp only [(full_of_ofJson? he).mem_slotNames_iff, hitem]
  · simp only [isEmpty, List.isEmpty_iff, List.eq_nil_iff_forall_not_mem, mem_toList_of_ofJson? hv he]

/-- A slot that holds a text, a layer that holds a list, one of no known name and an empty one do not keep
the gloves and the jacket from being read. -/
theorem gloves_and_jacket_are_read :
    let hands := Json.object [("base", .str "gloves"), ("accessories", .arr [.str "watch", .str "ring"])]
    let torso := Json.object [("outer", .str "jacket"), ("armor", .str "plate"), ("underwear", .null)]
    let v := Json.object [("feet", .str "boots"), ("torso_upper", torso), ("hands", hands)]
    let worn : List Worn := [⟨"torso_upper", .outer, "jacket"⟩, ⟨"hands", .base, "gloves"⟩]
    v.Canonical ∧ ofJson? v = .ok (ofList worn) ∧ Describes v ⟨"hands", .base, "gloves"⟩ ∧
    ¬ Describes v ⟨"hands", .accessories, "watch"⟩ ∧ (ofList worn).slotNames = ["hands", "torso_upper"] ∧
    {w | Describes v w}.ncard = 2 ∧ (∀ err, ofJson? v ≠ .error err) ∧
    ∃ slots, (ofList worn).toJson = .object [("slots", slots)] ∧ ofJson? slots = .ok (ofList worn) := by
  intro hands torso v worn
  have hhands : hands.Canonical := Json.canonical_object <| List.forall_mem_cons.2
    ⟨.str _, List.forall_mem_singleton.2 <| .arr _ <| List.forall_mem_cons.2
      ⟨.str _, List.forall_mem_singleton.2 (.str _)⟩⟩
  have htorso : torso.Canonical := Json.canonical_object <| List.forall_mem_cons.2
    ⟨.str _, List.forall_mem_cons.2 ⟨.str _, List.forall_mem_singleton.2 .null⟩⟩
  have hv : v.Canonical := Json.canonical_object <| List.forall_mem_cons.2
    ⟨.str _, List.forall_mem_cons.2 ⟨htorso, List.forall_mem_singleton.2 hhands⟩⟩
  have hbindings : ofList (bindings v) = ofList worn := by
    decide +kernel
  have hread : ofJson? v = .ok (ofList worn) := congrArg Except.ok hbindings
  obtain ⟨hrefused, hdescribed, hwritten⟩ := reads_what_is_described v hv worn
  obtain ⟨hitem, -, -, hsize, -⟩ := hdescribed _ hread
  refine ⟨hv, hread, (hitem _ _ _).1 rfl, fun hwatch => ?_, rfl, hsize.symm, fun err herr => ?_, hwritten⟩
  · cases (hitem _ _ _).2 hwatch
  · exact ((hrefused err).1 herr).2.2 _ rfl

end Equipment

end Attire

end EntityQuery
