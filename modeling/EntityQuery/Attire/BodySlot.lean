/-!
# Body slots

The places on a body that a query may name.  Equipment may also be worn in slots of other names: they
count when a whole outfit is looked at, but no step of a query leads to one of them.
-/

namespace EntityQuery.Attire

inductive BodySlot where
  | torsoUpper
  | torsoLower
  | legs
  | feet
  | headGear
  | hands
  | leftArm
  | rightArm
deriving DecidableEq, Repr

namespace BodySlot

def all : List BodySlot :=
  [torsoUpper, torsoLower, legs, feet, headGear, hands, leftArm, rightArm]

/-- The name of the field that leads to the slot, which is also its key in equipment. -/
def name : BodySlot → String
  | torsoUpper => "torso_upper"
  | torsoLower => "torso_lower"
  | legs       => "legs"
  | feet       => "feet"
  | headGear   => "head_gear"
  | hands      => "hands"
  | leftArm    => "left_arm_clothing"
  | rightArm   => "right_arm_clothing"

def ofName? (name : String) : Option BodySlot :=
  all.find? (·.name = name)

/-- The slot's place in `all`. -/
def index (slot : BodySlot) : Nat :=
  all.idxOf slot

theorem mem_all (slot : BodySlot) : slot ∈ all := by
  cases slot <;> decide

@[simp] theorem ofName?_name (slot : BodySlot) : ofName? slot.name = some slot := by
  cases slot <;> decide

theorem name_of_ofName? {name : String} {slot : BodySlot} (h : ofName? name = some slot) :
    slot.name = name := by
  simpa using List.find?_some h

end BodySlot

end EntityQuery.Attire
