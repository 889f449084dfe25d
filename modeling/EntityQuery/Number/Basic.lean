import EntityQuery.Number.Binary64

/-!
# Numbers

A number is an integer or a double, and stays what it is: `1` and `1.0` are different numbers.  Two
doubles are the same number when they compare equal, so `0.0` and `-0.0` are.
-/

namespace EntityQuery

inductive Number where
  | int (value : Int)
  | float (value : Float)
deriving DecidableEq

namespace Number

instance : Inhabited Number := ⟨.int 0⟩

/-- How many numbers a word of 64 bits holds. -/
def wordLimit : Nat :=
  1 <<< 64

/-- The double nearest to the number. -/
def toFloat : Number → Float
  | .int i   => Float.ofInt i
  | .float x => x

/-- Equality of numbers. -/
def same : Number → Number → Bool
  | .int i,   .int j   => i = j
  | .float x, .float y => x == y
  | .int _,   .float _ => false
  | .float _, .int _   => false

/-- Whether the number counts as true: it is neither zero nor a NaN. -/
def holds : Number → Bool
  | .int i   => i ≠ 0
  | .float x => ¬ Binary64.isZero x ∧ ¬ Binary64.isNaN x

/-- The number a calculation ends with: an integer where the result is whole and below `9e15` in
size, a double elsewhere, nothing for an infinity or a NaN. -/
def ofResult? (x : Float) : Option Number :=
  if ¬ Binary64.isFinite x then none
  else match Binary64.whole? x with
    | some i => if i.natAbs < 9000000000000000 then some (.int i) else some (.float x)
    | none   => some (.float x)

end Number

end EntityQuery
