import EntityQuery.Attire.Coverage
import EntityQuery.Attire.Equipment

/-!
# Outfits

An outfit is somebody's equipment together with what its items declare to cover, taken down once so
that no question about it needs another look at the world.
-/

namespace EntityQuery.Attire

structure Outfit where
  items : Equipment := ∅
  coverage : Table Coverage := ∅
deriving DecidableEq

namespace Outfit

instance : Inhabited Outfit := ⟨{}⟩

/-- Records what an item declares. -/
def declare (o : Outfit) (item : ItemId) (coverage : Coverage) : Outfit :=
  { o with coverage := o.coverage.insert item coverage }

/-- What an item declares. -/
def coverageOf? (o : Outfit) (item : ItemId) : Option Coverage :=
  o.coverage.get? item

/-- Whether any item declares anything. -/
def hasCoverage (o : Outfit) : Bool :=
  ¬ o.coverage.isEmpty

def isEmpty (o : Outfit) : Bool :=
  o.items.isEmpty

/-- The class of an item worn at a layer: the declared one, or the layer's. -/
def prominence (o : Outfit) (item : ItemId) (layer : Layer) : Prominence :=
  match o.coverageOf? item with
  | some c => c.prominence
  | none   => .ofLayer layer

/-- Whether an item declares to cover a slot. -/
def covers (o : Outfit) (item : ItemId) (slot : String) : Bool :=
  (o.coverageOf? item).any (·.covers slot)

end Outfit

end EntityQuery.Attire
