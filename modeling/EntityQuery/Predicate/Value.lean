import EntityQuery.Json.Printer
import EntityQuery.Text.Blank

/-!
# Values in predicates

How predicates take values: as true or false, as numbers, as texts, as equal and as ordered.  A
calculation is done in doubles, and one that does not end in a finite number ends in `null`.
-/

namespace EntityQuery.Predicate

/-- Whether a value counts as true: `null`, `false`, zero and what is empty do not, but an object always
does. -/
def truthy : Json → Bool
  | .null   => false
  | .bool b => b
  | .num n  => n.holds
  | .str s  => ¬ s.isEmpty
  | .arr vs => ¬ vs.isEmpty
  | .obj _  => true

/-- The double that a value is taken for: a text for the one it holds, or for zero if it is blank. -/
def toDouble? : Json → Option Float
  | .null   => some 0.0
  | .bool b => some (if b then 1.0 else 0.0)
  | .num n  => some n.toFloat
  | .str s  =>
      let cs := Text.trim s.toList
      if cs.isEmpty then some 0.0 else Number.readDouble? cs
  | .arr _  => none
  | .obj _  => none

/-- The value that a calculation ends with. -/
def ofDouble (x : Float) : Json :=
  match Number.ofResult? x with
  | some n => .num n
  | none   => .null

/-- The text that a value is taken for. -/
def toText : Json → String
  | .null  => ""
  | .str s => s
  | v      => v.text

/-- Equality across kinds: `null` equals itself only, arrays and objects what is the same, texts the same
text, and all else is compared as numbers. -/
def looselyEqual : Json → Json → Bool
  | .null,  .null  => true
  | .null,  _      => false
  | _,      .null  => false
  | .str s, .str t => s = t
  | .arr vs, w     => Json.same (.arr vs) w
  | .obj ms, w     => Json.same (.obj ms) w
  | v,      .arr ws => v.same (.arr ws)
  | v,      .obj ns => v.same (.obj ns)
  | v,      w      =>
      match toDouble? v, toDouble? w with
      | some x, some y => x == y
      | _,      _      => false

/-- Equality within a kind; numbers are compared as doubles. -/
def strictlyEqual : Json → Json → Bool
  | .num m, .num n => m.toFloat == n.toFloat
  | v,      w      => v.same w

/-- The order of two doubles, if they have one. -/
def orderDoubles? (x y : Float) : Option Ordering :=
  if x < y then some .lt
  else if y < x then some .gt
  else if x == y then some .eq
  else none

/-- The order of two values, if they have one: of texts character by character, of all else as
numbers. -/
def order? : Json → Json → Option Ordering
  | .str s, .str t => some (compare s t)
  | v,      w      => do orderDoubles? (← toDouble? v) (← toDouble? w)

/-- Whether each value and the next stand in an order that `accept` accepts. -/
def chained (accept : Ordering → Bool) : List Json → Bool
  | v :: w :: vs => (order? v w).any accept && chained accept (w :: vs)
  | _            => true

/-- Whether a text stands in another, character by character. -/
def standsIn (needle : List Char) : List Char → Bool
  | []      => needle.isEmpty
  | c :: cs => needle.isPrefixOf (c :: cs) || standsIn needle cs

/-- Whether a value occurs in another: its text in a text, or one equal to it in an array. -/
def occursIn (needle : Json) : Json → Bool
  | .str s  => standsIn (toText needle).toList s.toList
  | .arr vs => vs.any (strictlyEqual · needle)
  | _       => false

/-- The lesser of two doubles; a NaN counts only beside another one. -/
def lesser (x y : Float) : Float :=
  if Binary64.isNaN x then y
  else if Binary64.isNaN y then x
  else if y < x then y else x

/-- The greater of two doubles; a NaN counts only beside another one. -/
def greater (x y : Float) : Float :=
  if Binary64.isNaN x then y
  else if Binary64.isNaN y then x
  else if x < y then y else x

end EntityQuery.Predicate
