/-!
# Double-precision numbers, exactly

A finite double is `significand x * 2 ^ exponent x`, up to its sign.  The questions that need the
exact value, whether it is whole and what a division leaves, are answered on these two integers.
-/

namespace EntityQuery.Binary64

def isNegative (x : Float) : Bool :=
  x.toBits >>> 63 ≠ 0

/-- The eleven exponent bits. -/
def exponentBits (x : Float) : Nat :=
  ((x.toBits >>> 52) &&& 0x7ff).toNat

/-- The fifty-two bits below them. -/
def fractionBits (x : Float) : Nat :=
  (x.toBits &&& 0xfffffffffffff).toNat

/-- Neither an infinity nor a NaN. -/
def isFinite (x : Float) : Bool :=
  exponentBits x ≠ 0x7ff

/-- Positive or negative zero. -/
def isZero (x : Float) : Bool :=
  exponentBits x = 0 ∧ fractionBits x = 0

def isNaN (x : Float) : Bool :=
  exponentBits x = 0x7ff ∧ fractionBits x ≠ 0

/-- The bit above the fraction that is not written down. -/
def hiddenBit : Nat :=
  1 <<< 52

/-- The integer that `2 ^ exponent x` multiplies: below the normal range there is no hidden bit. -/
def significand (x : Float) : Nat :=
  if exponentBits x = 0 then fractionBits x else hiddenBit + fractionBits x

/-- The exponent of the last bit; it never falls below that of the least positive number. -/
def exponent (x : Float) : Int :=
  (max (exponentBits x) 1 : Nat) - 1075

/-- The integer that `x` is, if it is finite and has no fraction. -/
def whole? (x : Float) : Option Int :=
  let sign : Int := if isNegative x then -1 else 1
  let places := (-exponent x).toNat
  if ¬ isFinite x then none
  else if 0 ≤ exponent x then some (sign * (significand x <<< (exponent x).toNat : Nat))
  else if significand x % (1 <<< places) = 0 then some (sign * (significand x >>> places : Nat))
  else none

/-- The double `2 ^ e`, for an `e` that has one. -/
def powerOfTwo (e : Int) : Float :=
  if -1022 ≤ e then Float.ofBits (UInt64.ofNat (e + 1023).toNat <<< 52)
  else Float.ofBits (1 <<< UInt64.ofNat (e + 1074).toNat)

/-- What is left of `x` when `y` is taken from it as often as it goes, toward zero, with the sign of
`x`.  The remainder of two doubles is a double, so nothing is rounded. -/
def remainder (x y : Float) : Float :=
  if isNaN x ∨ isNaN y ∨ isZero y ∨ ¬ isFinite x then 0.0 / 0.0
  else if ¬ isFinite y then x
  else
    let e := min (exponent x) (exponent y)
    let dividend := significand x <<< (exponent x - e).toNat
    let divisor := significand y <<< (exponent y - e).toNat
    let rest := Float.ofNat (dividend % divisor) * powerOfTwo e
    if isNegative x then -rest else rest

/-- The double nearest to `digits * 10 ^ scale`, a tie going to the even one; an infinity from half a
unit beyond the greatest double.  Scales that decide the answer alone are not computed with. -/
def ofDecimal (digits : Nat) (scale : Int) : Float :=
  let places : Int := (Nat.toDigits 10 digits).length
  if digits = 0 ∨ scale + places < -330 then 0.0
  else if 310 < scale + places then 1.0 / 0.0
  else if 0 ≤ scale then Float.ofScientific digits false scale.toNat
  else Float.ofScientific digits true (-scale).toNat

end EntityQuery.Binary64
