import EntityQuery.Attire.Visibility
import EntityQuery.Json.Document

/-!
# Settings

How queries are resolved: whether a failing predicate ends the query, how deep queries may nest and how
large sets may grow, and how attire is looked at.  Every setting has a default, and a written record
may leave any of them out.
-/

namespace EntityQuery

open Attire (TieBreak ScoreTable)

structure Settings where
  /-- A predicate that fails ends the query, rather than excluding its candidate. -/
  strictFilters : Bool := false
  maxDepth : Nat := 64
  maxCandidates : Nat := 100000
  cacheCapacity : Nat := ScoreTable.defaultCapacity
  tieBreak : TieBreak := .slotOrder
deriving DecidableEq

namespace Settings

instance : Inhabited Settings := ⟨{}⟩

/-- The defaults, but for strict filters. -/
def strict : Settings :=
  { strictFilters := true }

def fieldNames : List String :=
  ["strict_filters", "max_depth", "max_candidates", "cache_capacity", "coverage_tie_break"]

def toJson (s : Settings) : Json :=
  .object [
    ("strict_filters", .bool s.strictFilters),
    ("max_depth", .ofNat s.maxDepth),
    ("max_candidates", .ofNat s.maxCandidates),
    ("cache_capacity", .ofNat s.cacheCapacity),
    ("coverage_tie_break", .str s.tieBreak.name)]

/-- The value of a field that may be left out. -/
def orDefault {α : Type} (default : α) (read? : Json → Option α) : Option Json → Option α
  | none   => some default
  | some v => read? v

def ofJson? (v : Json) : Option Settings :=
  match v.fields? fieldNames with
  | some [strictFilters, maxDepth, maxCandidates, cacheCapacity, tieBreak] => do
      let d : Settings := {}
      return {
        strictFilters := ← orDefault d.strictFilters Json.bool? strictFilters
        maxDepth := ← orDefault d.maxDepth Json.nat? maxDepth
        maxCandidates := ← orDefault d.maxCandidates Json.nat? maxCandidates
        cacheCapacity := ← orDefault d.cacheCapacity Json.nat? cacheCapacity
        tieBreak := ← orDefault d.tieBreak (·.word?.bind TieBreak.ofName?) tieBreak }
  | _ => none

/-- The value of one setting.  Where it is a word under its name, that name stands there once. -/
def fieldValue? (d : Document) : Option Json := do
  guard (d.memberCount ≤ 1)
  d.value?

/-- The settings that a document is a record of.  A setting may not be given twice, and members of
other names need not have a value. -/
def ofDocument? : Document → Option Settings
  | .obj members => do
      let named ← members.mapM fun (name, d) => return (← Piece.text? name, d)
      let known := named.filter fun (name, _) => name ∈ fieldNames
      guard (known.map (·.1)).Nodup
      let values ← known.mapM fun (name, d) => return (name, ← fieldValue? d)
      ofJson? (.object values)
  | .arr items => do ofJson? (.arr (← items.mapM fieldValue?))
  | _          => none

/-- The settings that a text is a record of. -/
def ofText? (text : String) : Option Settings := do
  ofDocument? (← Document.ofText? text)

end Settings

end EntityQuery
