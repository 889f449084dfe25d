import EntityQuery.Attire.Layer

/-!
# Views

A view is a way to look at what somebody wears.  Three views look at several layers and respect what
covers what: the topmost item of each slot, with or without a word about accessories, and all that is
visible.  The other three read one layer each.
-/

namespace EntityQuery.Attire

inductive View where
  | topmost
  | topmostNoAccessories
  | all
  | outer
  | base
  | underwear
deriving DecidableEq, Repr

namespace View

def every : List View :=
  [topmost, topmostNoAccessories, all, outer, base, underwear]

/-- The reserved name of the field that asks for the view. -/
def field : View → String
  | topmost              => "topmost_clothing"
  | topmostNoAccessories => "topmost_clothing_no_accessories"
  | all                  => "all_clothing"
  | outer                => "outer_clothing"
  | base                 => "base_clothing"
  | underwear            => "underwear"

def ofField? (field : String) : Option View :=
  every.find? (·.field = field)

/-- The view's own name, where it is not a field. -/
def name : View → String
  | topmost              => "topmost"
  | topmostNoAccessories => "topmost_no_accessories"
  | all                  => "all"
  | outer                => "outer"
  | base                 => "base"
  | underwear            => "underwear"

def ofName? (name : String) : Option View :=
  every.find? (·.name = name)

/-- The layers that the view looks at. -/
def layers : View → LayerSet
  | topmost              => .garments
  | topmostNoAccessories => .garments
  | all                  => .all
  | outer                => .ofList [.outer]
  | base                 => .ofList [.base]
  | underwear            => .ofList [.underwear]

/-- Whether the view shows one item of a slot, or all that are visible. -/
def picksOne : View → Bool
  | all => false
  | _   => true

/-- Whether items worn in other slots can hide those of a slot, or stand in for them. -/
def usesCoverage : View → Bool
  | topmost              => true
  | topmostNoAccessories => true
  | all                  => true
  | outer                => false
  | base                 => false
  | underwear            => false

@[simp] theorem ofField?_field (view : View) : ofField? view.field = some view := by
  cases view <;> decide

end View

end EntityQuery.Attire
