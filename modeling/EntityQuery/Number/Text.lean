import EntityQuery.Number.Basic
import EntityQuery.Number.Shortest

/-!
# Numbers written and read

A number is written with the fewest digits that read back: in positional notation from `0.00001` up
to `1e16`, always with a decimal, and elsewhere with one digit before the point and a signed exponent.

Two grammars are read.  `Lexeme` is the number of a data format: it keeps integers of up to 64 bits
exact and reads the others as doubles, from as many leading digits as fit 64 bits, scaled by powers of
ten.  `readDouble?` is the number a text holds, which always is a double, and the nearest one.
-/

namespace EntityQuery

namespace Number

/-! ### Writing -/

/-- The decimal digits of `n`. -/
def digits (n : Nat) : List Char :=
  Nat.toDigits 10 n

def natText (n : Nat) : String :=
  String.ofList (digits n)

def intText (i : Int) : List Char :=
  if i < 0 then '-' :: digits i.natAbs else digits i.natAbs

/-- The decimals `0.00001 ≤ d < 10000000000000000` are written in positional notation. -/
def decimalText (d : Shortest.Decimal) : List Char :=
  let ds := digits d.digits
  let point : Int := ds.length + d.scale
  if -5 < point ∧ point ≤ 0 then '0' :: '.' :: (List.replicate (-point).toNat '0' ++ ds)
  else if 0 < point ∧ point < ds.length then ds.take point.toNat ++ '.' :: ds.drop point.toNat
  else if 0 < point ∧ point ≤ 16 then ds ++ List.replicate (point - ds.length).toNat '0' ++ ['.', '0']
  else
    let fraction := if ds.length ≤ 1 then [] else '.' :: ds.drop 1
    let sign := if point - 1 < 0 then '-' else '+'
    ds.take 1 ++ fraction ++ 'e' :: sign :: digits (point - 1).natAbs

def floatText (x : Float) : List Char :=
  let sign := if Binary64.isNegative x then ['-'] else []
  if Binary64.isZero x then sign ++ ['0', '.', '0']
  else sign ++ decimalText (Shortest.ofFloat x)

/-- A number's text.  A double must be finite. -/
def text : Number → List Char
  | .int i   => intText i
  | .float x => floatText x

/-! ### Reading -/

def digitValue (c : Char) : Nat :=
  c.toNat - '0'.toNat

def ofDigits (ds : List Char) : Nat :=
  ds.foldl (fun n d => 10 * n + digitValue d) 0

/-- A leading sign: whether it was a minus, and what follows. -/
def splitSign : List Char → Bool × List Char
  | '-' :: cs => (true, cs)
  | '+' :: cs => (false, cs)
  | cs        => (false, cs)

/-- An exponent, if the text starts with one: nothing when its digits are missing, zero when there is
no exponent at all. -/
def splitExponent? (cs : List Char) : Option (Option Int × List Char) :=
  match cs with
  | c :: r =>
      if c = 'e' ∨ c = 'E' then
        let (negative, r) := splitSign r
        let (ds, r) := r.span Char.isDigit
        if ds.isEmpty then none
        else some (some (if negative then -(ofDigits ds : Int) else ofDigits ds), r)
      else some (none, cs)
  | [] => some (none, [])

/-- A number as it stands in a document. -/
structure Lexeme where
  negative : Bool
  whole : List Char
  fraction : Option (List Char)
  exponent : Option Int
deriving DecidableEq

namespace Lexeme

/-- The lexeme that a text is: `-? (0 | [1-9][0-9]*) (. [0-9]+)? ([eE] [+-]? [0-9]+)?`. -/
def parse? (cs : List Char) : Option Lexeme := do
  let (negative, cs) := match cs with
    | '-' :: r => (true, r)
    | r        => (false, r)
  let (whole, cs) := cs.span Char.isDigit
  guard (whole ≠ [] ∧ (whole.head? = some '0' → whole = ['0']))
  let (fraction, cs) ← match cs with
    | '.' :: r =>
        let (ds, r) := r.span Char.isDigit
        if ds.isEmpty then none else some (some ds, r)
    | r => some (none, r)
  let (exponent, cs) ← splitExponent? cs
  guard cs.isEmpty
  return { negative, whole, fraction, exponent }

/-- Appends digits to `n` while the result is below `2 ^ 64`; also how many were left over. -/
def absorb (n : Nat) : List Char → Nat × Nat
  | []      => (n, 0)
  | d :: ds =>
      let m := 10 * n + digitValue d
      if m < wordLimit then absorb m ds else (n, ds.length + 1)

/-- The quotient `x / 10 ^ k`, in steps within the range of a double. -/
def scaleDown (x : Float) (k : Nat) : Float :=
  if k ≤ 308 then x / Float.ofScientific 1 false k
  else if Binary64.isZero x then x
  else scaleDown (x / Float.ofScientific 1 false 308) (k - 308)
termination_by k

/-- The product `n * 10 ^ scale`, unless that is beyond the range of a double. -/
def scaled? (n : Nat) (scale : Int) : Option Float :=
  if scale < 0 then some (scaleDown (Float.ofNat n) scale.natAbs)
  else if n = 0 then some 0.0
  else if 308 < scale then none
  else
    let x := Float.ofNat n * Float.ofScientific 1 false scale.toNat
    if Binary64.isFinite x then some x else none

/-- The number a lexeme denotes.  Without fraction and exponent it is an integer, if it lies in
`-2 ^ 63 ≤ i < 2 ^ 64` and is not `-0`; else it is a double, and there is none beyond their range. -/
def value? (l : Lexeme) : Option Number :=
  let (n, dropped) := absorb 0 l.whole
  if l.fraction = none ∧ l.exponent = none ∧ dropped = 0 then
    if ¬ l.negative then some (.int n)
    else if 0 < n ∧ 2 * n ≤ wordLimit then some (.int (-n))
    else some (.float (-Float.ofNat n))
  else
    let fraction := l.fraction.getD []
    let (m, left) := absorb n fraction
    let scale : Int := dropped - (fraction.length - left) + l.exponent.getD 0
    (scaled? m scale).map fun x => .float (if l.negative then -x else x)

end Lexeme

/-- The double a text holds: an optional sign and then `inf`, `infinity`, `nan` in any case, or digits
with at most one point and an optional exponent. -/
def readDouble? (cs : List Char) : Option Float := do
  let (negative, cs) := splitSign cs
  let signed (x : Float) : Float := if negative then -x else x
  let word := cs.map Char.toLower
  if word = ['i', 'n', 'f'] ∨ word = ['i', 'n', 'f', 'i', 'n', 'i', 't', 'y'] then
    return signed (1.0 / 0.0)
  if word = ['n', 'a', 'n'] then
    return 0.0 / 0.0
  let (whole, cs) := cs.span Char.isDigit
  let (fraction, cs) := match cs with
    | '.' :: r => r.span Char.isDigit
    | r        => ([], r)
  guard (¬ (whole ++ fraction).isEmpty)
  let (exponent, cs) ← splitExponent? cs
  guard cs.isEmpty
  return signed (Binary64.ofDecimal (ofDigits (whole ++ fraction)) (exponent.getD 0 - fraction.length))

/-- The index a text holds: an optional plus and digits, below `2 ^ 64`. -/
def readIndex? (cs : List Char) : Option Nat := do
  let ds := match cs with
    | '+' :: r => r
    | r        => r
  guard (¬ ds.isEmpty ∧ ds.all Char.isDigit)
  let n := ofDigits ds
  guard (n < wordLimit)
  return n

end Number

end EntityQuery
