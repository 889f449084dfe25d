import EntityQuery.Attire.Error
import EntityQuery.Attire.Layer
import EntityQuery.Json.Record
import EntityQuery.Log

/-!
# Equipment

What somebody wears: for every slot and layer at most one item.  Slots are kept by name, in ascending
order, those that no query can name as well.

Component data is read with patience.  An entry counts if its slot maps layers to items, its layer is
one of the four and its item is a string; the others are remarked on and left out, and do not disturb
their neighbours (`Equipment.bindings`, `Equipment.remarks`).  Only data that is no map of slots at
all is refused.
-/

namespace EntityQuery.Attire

/-- The items of one slot, by layer. -/
structure SlotItems where
  outer : Option ItemId := none
  base : Option ItemId := none
  underwear : Option ItemId := none
  accessories : Option ItemId := none
deriving DecidableEq

namespace SlotItems

def get? (s : SlotItems) : Layer → Option ItemId
  | .outer       => s.outer
  | .base        => s.base
  | .underwear   => s.underwear
  | .accessories => s.accessories

def put (s : SlotItems) (layer : Layer) (item : ItemId) : SlotItems :=
  match layer with
  | .outer       => { s with outer := some item }
  | .base        => { s with base := some item }
  | .underwear   => { s with underwear := some item }
  | .accessories => { s with accessories := some item }

/-- The occupied layers with their items, the outermost first. -/
def toList (s : SlotItems) : List (Layer × ItemId) :=
  Layer.all.filterMap fun layer => (s.get? layer).map (layer, ·)

@[simp] theorem get?_put (s : SlotItems) (layer other : Layer) (item : ItemId) :
    (s.put layer item).get? other = if other = layer then some item else s.get? other := by
  cases layer <;> cases other <;> simp [put, get?]

theorem ext_get? {s t : SlotItems} (h : ∀ layer, s.get? layer = t.get? layer) : s = t := by
  obtain ⟨a, b, c, d⟩ := s
  obtain ⟨a', b', c', d'⟩ := t
  have h₁ := h .outer
  have h₂ := h .base
  have h₃ := h .underwear
  have h₄ := h .accessories
  simp only [get?] at h₁ h₂ h₃ h₄
  rw [h₁, h₂, h₃, h₄]

theorem mem_toList {s : SlotItems} {layer : Layer} {item : ItemId} :
    (layer, item) ∈ s.toList ↔ s.get? layer = some item := by
  simp [toList, Layer.mem_all]

end SlotItems

structure Equipment where
  slots : Table SlotItems
deriving DecidableEq

namespace Equipment

def empty : Equipment :=
  ⟨∅⟩

instance : EmptyCollection Equipment := ⟨empty⟩
instance : Inhabited Equipment := ⟨empty⟩

/-- The items worn in a slot. -/
def inSlot (e : Equipment) (slot : String) : SlotItems :=
  (e.slots.get? slot).getD {}

/-- The item at a slot and layer. -/
def itemAt? (e : Equipment) (slot : String) (layer : Layer) : Option ItemId :=
  (e.inSlot slot).get? layer

/-- Puts an item on, in place of what was worn there. -/
def equip (e : Equipment) (slot : String) (layer : Layer) (item : ItemId) : Equipment :=
  ⟨e.slots.insert slot ((e.inSlot slot).put layer item)⟩

/-- Puts an item on; also the item that was worn there. -/
def exchange (e : Equipment) (slot : String) (layer : Layer) (item : ItemId) :
    Option ItemId × Equipment :=
  (e.itemAt? slot layer, e.equip slot layer item)

/-- The occupied layers of a slot, the outermost first. -/
def occupied (e : Equipment) (slot : String) : List (Layer × ItemId) :=
  (e.inSlot slot).toList

/-- The occupied layers of a slot that a set admits. -/
def occupiedIn (e : Equipment) (slot : String) (admitted : LayerSet) : List (Layer × ItemId) :=
  (e.occupied slot).filter fun o => admitted.admits o.1

def slotNames (e : Equipment) : List String :=
  e.slots.names

/-- A slot, a layer and the item worn there. -/
structure Worn where
  slot : String
  layer : Layer
  item : ItemId
deriving DecidableEq

/-- All that is worn, by slot and then by layer. -/
def toList (e : Equipment) : List Worn :=
  e.slots.entries.flatMap fun (slot, items) => items.toList.map fun (layer, item) => ⟨slot, layer, item⟩

/-- How many items are worn, each as often as it is. -/
def size (e : Equipment) : Nat :=
  e.toList.length

def isEmpty (e : Equipment) : Bool :=
  e.toList.isEmpty

/-- The equipment with all of `worn` put on, one after the other. -/
def ofList (worn : List Worn) : Equipment :=
  worn.foldl (fun e w => e.equip w.slot w.layer w.item) ∅

@[simp] theorem itemAt?_equip (e : Equipment) (slot other : String) (layer layer' : Layer)
    (item : ItemId) :
    (e.equip slot layer item).itemAt? other layer'
      = if other = slot ∧ layer' = layer then some item else e.itemAt? other layer' := by
  by_cases h : other = slot
  · subst h
    simp [equip, itemAt?, inSlot]
  · simp [equip, itemAt?, inSlot, h]

/-! ### Component data -/

/-- The layer and item that an entry of a slot says are worn, if it is as it should be. -/
def layerBinding? : String × Json → Option (Layer × ItemId)
  | (key, .str item) => (Layer.ofName? key).map (·, item)
  | _                => none

/-- What an entry of the equipment says is worn. -/
def slotBindings : String × Json → List Worn
  | (slot, .obj layers) =>
      (layers.filterMap layerBinding?).map fun (layer, item) => ⟨slot, layer, item⟩
  | _                   => []

/-- What the data of an equipment component says is worn. -/
def bindings : Json → List Worn
  | .obj slots => slots.flatMap slotBindings
  | _          => []

/-- The equipment that component data describes; `null` describes none. -/
def ofJson? : Json → Except AttireError Equipment
  | .null      => .ok ∅
  | .obj slots => .ok (ofList (bindings (.obj slots)))
  | v          => .error (.malformedEquipment v.kind)

/-- What there is to remark on an entry of a slot.  A layer that holds `null` is merely empty. -/
def layerRemark? (slot : String) : String × Json → Option Event
  | (key, v) =>
      match Layer.ofName? key, v with
      | none,       _      => some
          { severity := .debug
            message := "skipping unknown layer"
            fields := [("slot", .str slot), ("layer", .str key)] }
      | some _,     .str _ => none
      | some _,     .null  => none
      | some layer, v      => some
          { severity := .warn
            message := "skipping layer that does not hold a single item id"
            fields := [("slot", .str slot), ("layer", .str layer.name), ("found", .str v.kind.name)] }

/-- What there is to remark on an entry of the equipment. -/
def slotRemarks : String × Json → List Event
  | (slot, .obj layers) => layers.filterMap (layerRemark? slot)
  | (slot, v)           =>
      [{ severity := .warn
         message := "skipping slot that does not map layers to items"
         fields := [("slot", .str slot), ("found", .str v.kind.name)] }]

/-- What there is to remark on the data of an equipment component. -/
def remarks : Json → Log
  | .obj slots => slots.flatMap slotRemarks
  | _          => []

/-! ### Written form -/

/-- The record of the slots; a slot without items is written, too. -/
def toJson (e : Equipment) : Json :=
  .object [("slots", .obj (e.slots.entries.map fun (slot, items) =>
    (slot, .object (items.toList.map fun (layer, item) => (layer.name, .str item)))))]

/-- The items of a slot in the written form: here every key is a layer and every value an item. -/
def slotOfWritten? : Json → Option SlotItems
  | .obj layers => do
      let entries ← layers.mapM layerBinding?
      return entries.foldl (fun items (layer, item) => items.put layer item) {}
  | _           => none

def ofWritten? (v : Json) : Option Equipment :=
  match v.record? ["slots"] with
  | some [.obj slots] => do
      let entries ← slots.mapM fun (slot, layers) => return (slot, ← slotOfWritten? layers)
      return ⟨.ofList entries⟩
  | _ => none

end Equipment

end EntityQuery.Attire
