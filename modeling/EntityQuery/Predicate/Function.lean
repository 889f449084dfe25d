import EntityQuery.Predicate.Error
import EntityQuery.Predicate.Value

/-!
# Functions

The operators that look at nothing but the values of their operands.
-/

namespace EntityQuery.Predicate

inductive Function where
  | equal
  | notEqual
  | strictEqual
  | notStrictEqual
  | less
  | lessOrEqual
  | greater
  | greaterOrEqual
  | not
  | truth
  | isIn
  | cat
  | add
  | multiply
  | subtract
  | divide
  | remainder
  | min
  | max
deriving DecidableEq, Repr

namespace Function

def all : List Function :=
  [equal, notEqual, strictEqual, notStrictEqual, less, lessOrEqual, greater, greaterOrEqual, not, truth,
    isIn, cat, add, multiply, subtract, divide, remainder, min, max]

def name : Function → String
  | equal          => "=="
  | notEqual       => "!="
  | strictEqual    => "==="
  | notStrictEqual => "!=="
  | less           => "<"
  | lessOrEqual    => "<="
  | greater        => ">"
  | greaterOrEqual => ">="
  | not            => "!"
  | truth          => "!!"
  | isIn           => "in"
  | cat            => "cat"
  | add            => "+"
  | multiply       => "*"
  | subtract       => "-"
  | divide         => "/"
  | remainder      => "%"
  | min            => "min"
  | max            => "max"

def ofName? (name : String) : Option Function :=
  all.find? (·.name = name)

def invalid {α : Type} (f : Function) (reason : String) : Except PredicateError α :=
  .error (.invalidArguments f.name reason)

/-- The operands as doubles. -/
def doubles (f : Function) : List Json → Except PredicateError (List Float)
  | []      => .ok []
  | v :: vs =>
      match toDouble? v with
      | some x => (f.doubles vs).map (x :: ·)
      | none   => f.invalid (v.text ++ " is not a number")

/-- Whether the operands are in order, each and the next. -/
def inOrder (f : Function) (accept : Ordering → Bool) (vs : List Json) :
    Except PredicateError Json :=
  if vs.length < 2 then f.invalid "expects at least two operands"
  else .ok (.bool (chained accept vs))

/-- The first and second operand, `null` where there is none. -/
def operand (vs : List Json) (i : Nat) : Json :=
  vs[i]?.getD .null

/-- The quotient or remainder of the two operands. -/
def division (f : Function) (divide : Float → Float → Float) (vs : List Json) :
    Except PredicateError Json := do
  match ← f.doubles vs with
  | [x, y] => if Binary64.isZero y then f.invalid "division by zero" else return ofDouble (divide x y)
  | _      => f.invalid "expects two operands"

/-- The least or greatest operand, `null` if there is none. -/
def extreme (f : Function) (pick : Float → Float → Float) (vs : List Json) :
    Except PredicateError Json := do
  match ← f.doubles vs with
  | []      => return .null
  | x :: xs => return ofDouble (xs.foldl pick x)

/-- What a function makes of its operands. -/
def apply (f : Function) (vs : List Json) : Except PredicateError Json :=
  match f with
  | equal          => .ok (.bool (looselyEqual (operand vs 0) (operand vs 1)))
  | notEqual       => .ok (.bool (¬ looselyEqual (operand vs 0) (operand vs 1)))
  | strictEqual    => .ok (.bool (strictlyEqual (operand vs 0) (operand vs 1)))
  | notStrictEqual => .ok (.bool (¬ strictlyEqual (operand vs 0) (operand vs 1)))
  | less           => f.inOrder Ordering.isLT vs
  | lessOrEqual    => f.inOrder Ordering.isLE vs
  | greater        => f.inOrder Ordering.isGT vs
  | greaterOrEqual => f.inOrder Ordering.isGE vs
  | not            => .ok (.bool (¬ truthy (operand vs 0)))
  | truth          => .ok (.bool (truthy (operand vs 0)))
  | isIn           => .ok (.bool (occursIn (operand vs 0) (operand vs 1)))
  | cat            => .ok (.str (String.join (vs.map toText)))
  | add            => do return ofDouble ((← f.doubles vs).foldl (· + ·) 0.0)
  | multiply       => do
      match ← f.doubles vs with
      | [] => f.invalid "expects at least one operand"
      | xs => return ofDouble (xs.foldl (· * ·) 1.0)
  | subtract       => do
      match ← f.doubles vs with
      | [x]    => return ofDouble (-x)
      | [x, y] => return ofDouble (x - y)
      | _      => f.invalid "expects one or two operands"
  | divide         => f.division (· / ·) vs
  | remainder      => f.division Binary64.remainder vs
  | min            => f.extreme lesser vs
  | max            => f.extreme Predicate.greater vs

end Function

end EntityQuery.Predicate
