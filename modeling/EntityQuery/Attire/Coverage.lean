import EntityQuery.Attire.Error
import EntityQuery.Attire.Layer
import EntityQuery.Json.Misfit
import EntityQuery.Json.Record

/-!
# Coverage

An item may declare which slots it covers, and how prominently.  An item that declares nothing is as
prominent as its layer lets it be.
-/

namespace EntityQuery.Attire

/-- How much an item stands out, the most prominent class first. -/
inductive Prominence where
  | outer
  | base
  | underwear
  | direct
deriving DecidableEq, Repr

namespace Prominence

def all : List Prominence :=
  [outer, base, underwear, direct]

def name : Prominence → String
  | outer     => "outer"
  | base      => "base"
  | underwear => "underwear"
  | direct    => "direct"

def ofName? (name : String) : Option Prominence :=
  all.find? (·.name = name)

/-- The class that a value names. -/
def read : Json → Except Json.Misfit Prominence :=
  Json.word (all.map name) ofName?

/-- What the class adds to a score: more than all layers can make up for. -/
def weight : Prominence → Nat
  | outer     => 100
  | base      => 200
  | underwear => 300
  | direct    => 400

/-- The class of an item that declares none. -/
def ofLayer : Layer → Prominence
  | .outer       => outer
  | .base        => base
  | .underwear   => underwear
  | .accessories => direct

/-- Whether `p` is as prominent as `q`, or more. -/
def atLeast (p q : Prominence) : Bool :=
  p.weight ≤ q.weight

theorem mem_all (p : Prominence) : p ∈ all := by
  cases p <;> decide

@[simp] theorem ofName?_name (p : Prominence) : ofName? p.name = some p := by
  cases p <;> decide

/-- The score of an item of class `p` worn at `layer`; the lower, the more prominent. -/
def score (p : Prominence) (layer : Layer) : Nat :=
  p.weight + layer.weight

end Prominence

/-- What an item declares: the slots it covers, and its class. -/
structure Coverage where
  slots : List String
  prominence : Prominence
deriving DecidableEq

namespace Coverage

/-- Whether the item covers `slot`. -/
def covers (c : Coverage) (slot : String) : Bool :=
  slot ∈ c.slots

def fieldNames : List String :=
  ["covers", "coveragePriority"]

def toJson (c : Coverage) : Json :=
  .object [("covers", .arr (c.slots.map .str)), ("coveragePriority", .str c.prominence.name)]

/-- The declaration that the data of an item's component is, if it is one. -/
def ofJson? (v : Json) : Option Coverage :=
  match v.record? fieldNames with
  | some [slots, prominence] => do
      return ⟨← slots.strings?, ← Prominence.ofName? (← prominence.word?)⟩
  | _ => none

/-- The declaration that data is, or why it is none.  In an object the class comes before the slots, and what
is wrong with either is told before that one of them is missing. -/
def read : Json → Except Json.Misfit Coverage
  | .arr []                           => .error (.length 0 "struct CoverageMapping with 2 elements")
  | .arr [slots]                      => do
      let _ ← slots.strings
      .error (.length 1 "struct CoverageMapping with 2 elements")
  | .arr (slots :: prominence :: more) => do
      let c : Coverage := ⟨← slots.strings, ← Prominence.read prominence⟩
      if more.isEmpty then return c else .error (.length (more.length + 2) "fewer elements in array")
  | .obj members                      => do
      let prominence? ← (Entries.get? "coveragePriority" members).mapM Prominence.read
      let slots? ← (Entries.get? "covers" members).mapM Json.strings
      match slots?, prominence? with
      | some slots, some prominence => return ⟨slots, prominence⟩
      | none,       _               => .error (.missing "covers")
      | some _,     none            => .error (.missing "coveragePriority")
  | v                                 => .error (.kind v "struct CoverageMapping")

/-- The declaration that the data of an item's component is. -/
def ofJson (item : ItemId) (v : Json) : Except AttireError Coverage :=
  (read v).mapError fun reason => .malformedCoverage item reason.message

end Coverage

end EntityQuery.Attire
