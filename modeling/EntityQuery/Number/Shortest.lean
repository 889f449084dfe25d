import EntityQuery.Number.Binary64

/-!
# The shortest decimal of a double

The decimals that read back as a given double fill an interval.  For one digit, two digits and so on,
the two neighbours of the exact value with that many digits are tried: the first number of digits for
which one lies in the interval wins, and of two the nearer.  No shorter decimal reads back, because
where a point of a decimal grid lies in the interval so does one of the value's two neighbours on
that grid.
-/

namespace EntityQuery.Shortest

/-- A decimal `digits * 10 ^ scale`. -/
structure Decimal where
  digits : Nat
  scale : Int
deriving DecidableEq, Repr

/-- The power of ten with `k` zeros. -/
def tenTo (k : Nat) : Nat :=
  Nat.pow 10 k

/-- A positive number and the ends of an interval about it, as multiples of `1 / unit`. -/
structure Target where
  value : Nat
  low : Nat
  high : Nat
  unit : Nat
  closed : Bool

/-- The reals that round to a finite positive double.  Half a unit of its last place to either side,
but a quarter below a power of two, where the next double down is half as far; the ends belong to it
when its significand is even. -/
def Target.of (x : Float) : Target :=
  let m := Binary64.significand x
  let e := Binary64.exponent x
  let below := if m = Binary64.hiddenBit ∧ -1074 < e then 1 else 2
  let up := 1 <<< (e - 2).toNat
  { value := 4 * m * up
    low := (4 * m - below) * up
    high := (4 * m + 2) * up
    unit := 1 <<< (2 - e).toNat
    closed := m % 2 = 0 }

/-- Whether `digits * 10 ^ scale` lies in the interval. -/
def Target.admits (t : Target) (d : Decimal) : Bool :=
  let point := d.digits * tenTo d.scale.toNat * t.unit
  let down := tenTo (-d.scale).toNat
  if t.closed then t.low * down ≤ point ∧ point ≤ t.high * down
  else t.low * down < point ∧ point < t.high * down

/-- Where the decimal point stands: `10 ^ (p - 1) ≤ value < 10 ^ p`. -/
def Target.point (t : Target) : Int :=
  let guess : Int := (Nat.toDigits 10 t.value).length - (Nat.toDigits 10 t.unit).length
  if t.unit * tenTo guess.toNat ≤ t.value * tenTo (-guess).toNat then guess + 1 else guess

/-- The neighbours of the value among the multiples of `10 ^ scale`: the one at or below it and the
next, the nearer first, the even first of two as near. -/
def Target.neighbours (t : Target) (scale : Int) : List Decimal :=
  let value := t.value * tenTo (-scale).toNat
  let step := t.unit * tenTo scale.toNat
  let floor := value / step
  let rest := value % step
  let (below, above) : Decimal × Decimal := (⟨floor, scale⟩, ⟨floor + 1, scale⟩)
  if 2 * rest < step ∨ (2 * rest = step ∧ floor % 2 = 0) then [below, above] else [above, below]

/-- The first admitted neighbour with `digits`, `digits + 1`, … digits; seventeen always suffice. -/
def Target.search (t : Target) : (tries : Nat) → (digits : Nat) → Decimal
  | 0,         digits => ⟨t.value * tenTo (digits - t.point).toNat / t.unit, t.point - digits⟩
  | tries + 1, digits =>
      match (t.neighbours (t.point - digits)).find? t.admits with
      | some d => d
      | none   => t.search tries (digits + 1)

/-- Trailing zeros moved into the scale. -/
def Decimal.trim (d : Decimal) : Decimal :=
  if h : d.digits ≠ 0 ∧ d.digits % 10 = 0 then Decimal.trim ⟨d.digits / 10, d.scale + 1⟩ else d
termination_by d.digits
decreasing_by exact Nat.div_lt_self (Nat.pos_of_ne_zero h.1) (by decide)

/-- The shortest decimal that reads back as the finite positive double `x`. -/
def ofFloat (x : Float) : Decimal :=
  ((Target.of x).search 17 1).trim

end EntityQuery.Shortest
