import EntityQuery.Number.Text
import EntityQuery.Text.Blank

/-!
# Layers

A slot holds at most one item on each of four layers.  A `LayerSet` is a choice of layers, as the bits
of a byte; it has a text of its own, the names of its layers between bars.  Bits beyond the four
layers stand for nothing, and the text keeps them.
-/

namespace EntityQuery.Attire

/-- The layers, the outermost first. -/
inductive Layer where
  | outer
  | base
  | underwear
  | accessories
deriving DecidableEq, Repr

namespace Layer

def all : List Layer :=
  [outer, base, underwear, accessories]

/-- The layer's key in equipment. -/
def name : Layer → String
  | outer       => "outer"
  | base        => "base"
  | underwear   => "underwear"
  | accessories => "accessories"

def ofName? (name : String) : Option Layer :=
  all.find? (·.name = name)

/-- How many layers lie outside of it. -/
def depth : Layer → Nat
  | outer       => 0
  | base        => 1
  | underwear   => 2
  | accessories => 3

/-- What the layer adds to a score. -/
def weight : Layer → Nat
  | outer       => 10
  | base        => 20
  | underwear   => 30
  | accessories => 40

def bit : Layer → UInt8
  | outer       => 1
  | base        => 2
  | underwear   => 4
  | accessories => 8

theorem mem_all (layer : Layer) : layer ∈ all := by
  cases layer <;> decide

@[simp] theorem ofName?_name (layer : Layer) : ofName? layer.name = some layer := by
  cases layer <;> decide

theorem name_of_ofName? {name : String} {layer : Layer} (h : ofName? name = some layer) :
    layer.name = name := by
  simpa using List.find?_some h

end Layer

structure LayerSet where
  bits : UInt8
deriving DecidableEq

namespace LayerSet

/-- The set of the layers of a list. -/
def ofList (layers : List Layer) : LayerSet :=
  ⟨layers.foldl (fun bits layer => bits ||| layer.bit) 0⟩

def garments : LayerSet :=
  ofList [.outer, .base, .underwear]

def all : LayerSet :=
  ofList Layer.all

def admits (s : LayerSet) (layer : Layer) : Bool :=
  s.bits &&& layer.bit ≠ 0

/-- The layers of the set, the outermost first. -/
def ordered (s : LayerSet) : List Layer :=
  Layer.all.filter s.admits

/-- The bits that stand for no layer. -/
def strayBits (s : LayerSet) : UInt8 :=
  s.bits &&& ~~~all.bits

/-- The set of the layers that the low byte of a number names. -/
def ofBits (n : Nat) : LayerSet :=
  ⟨UInt8.ofNat n &&& all.bits⟩

def union (s t : LayerSet) : LayerSet :=
  ⟨s.bits ||| t.bits⟩

/-! ### Text -/

/-- A layer's name in the text of a set. -/
def flagName : Layer → String
  | .outer       => "OUTER"
  | .base        => "BASE"
  | .underwear   => "UNDERWEAR"
  | .accessories => "ACCESSORIES"

/-- The names of the layers, and then the stray bits, if there are any, as a number to the base
sixteen; between bars. -/
def text (s : LayerSet) : String :=
  let names := s.ordered.map flagName
  let stray := if s.strayBits = 0 then []
    else [String.ofList ('0' :: 'x' :: Nat.toDigits 16 s.strayBits.toNat)]
  String.intercalate " | " (names ++ stray)

def hexValue? (c : Char) : Option Nat :=
  if c.isDigit then some (c.toNat - '0'.toNat)
  else if 'a' ≤ c.toLower ∧ c.toLower ≤ 'f' then some (c.toLower.toNat - 'a'.toNat + 10)
  else none

/-- A byte written to the base sixteen, after an optional plus. -/
def byte? (cs : List Char) : Option UInt8 := do
  let ds := match cs with
    | '+' :: r => r
    | r        => r
  guard (¬ ds.isEmpty)
  let n ← ds.foldlM (fun n d => (hexValue? d).map (16 * n + ·)) 0
  guard (n < 256)
  return UInt8.ofNat n

/-- What one part of a text stands for. -/
def part? (cs : List Char) : Option LayerSet :=
  match cs with
  | '0' :: 'x' :: ds => (byte? ds).map LayerSet.mk
  | _                =>
      if cs = "GARMENTS".toList then some garments
      else (Layer.all.find? fun layer => (flagName layer).toList = cs).map fun layer => ofList [layer]

/-- The set that a text stands for: the union of its parts, which bars divide and blanks may surround.
A text of blanks is the empty set; else no part may be empty. -/
def ofText? (s : String) : Option LayerSet := do
  if (Text.trim s.toList).isEmpty then return ofList []
  let parts ← (s.toList.splitOn '|').mapM fun cs => part? (Text.trim cs)
  return parts.foldl union (ofList [])

end LayerSet

end EntityQuery.Attire
