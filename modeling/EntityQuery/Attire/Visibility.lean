import EntityQuery.Attire.Outfit
import EntityQuery.Attire.ScoreTable
import EntityQuery.Attire.View

/-!
# Visibility

Which items of a slot does a view show?

The contenders for a slot are the items worn in it, at the layers the view looks at, and, for a view
that respects coverage, the items worn elsewhere at such layers that declare to cover the slot.  They
are ranked by score, the lower score first; on equal scores an item of the slot itself comes first,
and then the covering items in the order of the slots they are worn in.

A view that picks one item shows the first contender.  The view of all shows each contender that no
earlier one hides: an earlier item hides a later one if it declares to cover the slot and is as
prominent, or more.

Where nothing can change the answer the ranking is left out: a view of one layer is read off the
layer, and so is a slot with just one occupied layer if nobody declares anything (`Strategy`).
-/

namespace EntityQuery.Attire

/-- How a slot was looked at. -/
inductive Strategy where
  /-- The layers were read as they are. -/
  | layerRead
  /-- All contenders were ranked. -/
  | ranked
deriving DecidableEq, Repr

namespace Strategy

def all : List Strategy :=
  [layerRead, ranked]

def name : Strategy → String
  | layerRead => "legacy"
  | ranked    => "coverage"

def ofName? (name : String) : Option Strategy :=
  all.find? (·.name = name)

/-- The strategy of several slots together: ranked, if any of them was. -/
def ofCount (rankedSlots : Nat) : Strategy :=
  if 0 < rankedSlots then ranked else layerRead

end Strategy

/-- Which of several covering items with the best score a view that picks one item shows. -/
inductive TieBreak where
  /-- The one worn in the slot whose name comes first. -/
  | slotOrder
  /-- All of them. -/
  | includeAll
deriving DecidableEq, Repr

namespace TieBreak

def all : List TieBreak :=
  [slotOrder, includeAll]

def name : TieBreak → String
  | slotOrder  => "slot_order"
  | includeAll => "include_all"

def ofName? (name : String) : Option TieBreak :=
  all.find? (·.name = name)

end TieBreak

/-! ### Contenders -/

/-- An item that may be seen in a slot. -/
structure Contender where
  item : ItemId
  layer : Layer
  prominence : Prominence
  /-- The slot it is worn in, if that is another one. -/
  wornIn : Option String
  /-- Whether it declares to cover the slot. -/
  covers : Bool
deriving DecidableEq

/-- The contenders worn in the slot itself. -/
def Outfit.directContenders (o : Outfit) (slot : String) (view : View) : List Contender :=
  (o.items.occupiedIn slot view.layers).map fun (layer, item) =>
    { item, layer, prominence := o.prominence item layer, wornIn := none, covers := o.covers item slot }

/-- The contenders worn elsewhere. -/
def Outfit.coveringContenders (o : Outfit) (slot : String) (view : View) : List Contender :=
  if view.usesCoverage then
    (o.items.toList.filter fun w =>
      w.slot ≠ slot ∧ view.layers.admits w.layer ∧ o.covers w.item slot).map fun w =>
        { item := w.item, layer := w.layer, prominence := o.prominence w.item w.layer
          wornIn := some w.slot, covers := true }
  else []

/-- All contenders for a slot, in the order in which their scores are asked for. -/
def Outfit.contenders (o : Outfit) (slot : String) (view : View) : List Contender :=
  o.directContenders slot view ++ o.coveringContenders slot view

/-! ### Ranking -/

/-- A contender and its score. -/
structure Ranked extends Contender where
  score : Nat
deriving DecidableEq

namespace Ranked

/-- The order of where items are worn: the slot itself, then the others by name. -/
def placeOrder : Option String → Option String → Ordering
  | none,   none   => .eq
  | none,   some _ => .lt
  | some _, none   => .gt
  | some s, some t => compare s t

/-- The order of rank: by score, then by place, then by layer. -/
def order (a b : Ranked) : Ordering :=
  (compare a.score b.score).then
    ((placeOrder a.wornIn b.wornIn).then (compare a.layer.depth b.layer.depth))

/-- Puts `a` before the first of `rs` that does not rank before it. -/
def insert (a : Ranked) : List Ranked → List Ranked
  | []      => [a]
  | b :: rs => if (order a b).isLE then a :: b :: rs else b :: insert a rs

/-- By rank, the most prominent first. -/
def sort (rs : List Ranked) : List Ranked :=
  rs.foldr insert []

/-- Whether `a` hides `b`, standing before it. -/
def hides (a b : Ranked) : Bool :=
  a.covers ∧ a.item ≠ b.item ∧ a.prominence.atLeast b.prominence

/-- Those of `rs` that nothing in `earlier` and nothing before them in `rs` hides. -/
def unhidden (earlier : List Ranked) : List Ranked → List Ranked
  | []      => []
  | r :: rs =>
      if earlier.any (·.hides r) then unhidden (earlier ++ [r]) rs
      else r :: unhidden (earlier ++ [r]) rs

/-- The items that the view of all shows. -/
def visible (rs : List Ranked) : List ItemId :=
  ((unhidden [] rs).map (·.item)).eraseDups

/-- The items that a view shows that picks one: the first, and if it is a covering one and ties are
not broken, the items of all covering ones right after it with the same score. -/
def topmost (tieBreak : TieBreak) : List Ranked → List ItemId
  | []          => []
  | first :: rs =>
      if tieBreak = .includeAll ∧ first.wornIn.isSome then
        let tied := rs.takeWhile fun r => r.score = first.score ∧ r.wornIn.isSome
        (first.item :: tied.map (·.item)).eraseDups
      else [first.item]

/-- The items that a view shows. -/
def shown (tieBreak : TieBreak) (view : View) (rs : List Ranked) : List ItemId :=
  if view.picksOne then topmost tieBreak rs else visible rs

end Ranked

/-! ### Looking at an outfit -/

/-- What changes while outfits are looked at: the score table, and the log of what was remarked. -/
structure Ledger where
  scores : ScoreTable
  log : Log := []

/-- A look at an outfit. -/
abbrev Look := StateM Ledger

namespace Look

def remark (event : Event) : Look Unit :=
  modify fun l => { l with log := l.log ++ [event] }

/-- The score of a key, by way of the table. -/
def score (key : ScoreKey) : Look Nat := do
  let table := (← get).scores
  let (score, table') := table.ask key
  modify fun l => { l with scores := table' }
  if table.evictions < table'.evictions then
    remark
      { severity := .trace
        message := "priority cache cleared"
        fields := [("capacity", .ofNat table.room)] }
  return score

end Look

namespace Outfit

/-- The contenders for a slot with their scores, by rank. -/
def rank (o : Outfit) (slot : String) (view : View) : Look (List Ranked) := do
  let ranked ← (o.contenders slot view).mapM fun c => do
    return { toContender := c, score := ← Look.score (c.prominence, c.layer) }
  return Ranked.sort ranked

/-- What a view shows of a slot, found by ranking. -/
def rankedItems (o : Outfit) (tieBreak : TieBreak) (slot : String) (view : View) :
    Look (List ItemId) := do
  return Ranked.shown tieBreak view (← o.rank slot view)

/-- What a view shows of a slot, read off its layers. -/
def layerItems (o : Outfit) (slot : String) (view : View) : List ItemId :=
  let items := (o.items.occupiedIn slot view.layers).map (·.2)
  if view.picksOne then items.take 1 else items

/-- How a slot is looked at. -/
def strategy (o : Outfit) (slot : String) (view : View) : Strategy :=
  if ¬ view.usesCoverage then .layerRead
  else if (o.items.occupiedIn slot view.layers).length = 1 ∧ ¬ o.hasCoverage then .layerRead
  else .ranked

/-- What a view shows of a slot, and how it was found. -/
structure SlotFinding where
  items : List ItemId
  strategy : Strategy
deriving DecidableEq

def lookAtSlot (o : Outfit) (tieBreak : TieBreak) (slot : String) (view : View) :
    Look SlotFinding := do
  let strategy := o.strategy slot view
  let items ← match strategy with
    | .layerRead => pure (o.layerItems slot view)
    | .ranked    => o.rankedItems tieBreak slot view
  Look.remark
    { severity := .trace
      message := "slot resolved"
      fields := [("slot", .str slot), ("mode", .str view.field), ("strategy", .str strategy.name),
        ("found", .ofNat items.length)] }
  return ⟨items, strategy⟩

/-- What a view shows of all slots together, each item once, and how many slots were found how. -/
structure Finding where
  items : List ItemId
  layerReads : Nat
  rankings : Nat
deriving DecidableEq

def Finding.strategy (f : Finding) : Strategy :=
  .ofCount f.rankings

/-- Looks at all slots in which items are kept, by name. -/
def look (o : Outfit) (tieBreak : TieBreak) (view : View) : Look Finding := do
  let found ← o.items.slotNames.mapM fun slot => o.lookAtSlot tieBreak slot view
  return {
    items := (found.flatMap (·.items)).eraseDups
    layerReads := found.countP (·.strategy = .layerRead)
    rankings := found.countP (·.strategy = .ranked) }

end Outfit

end EntityQuery.Attire
