import EntityQuery.Json.Basic

/-!
# Written records and words

Records are written as objects.  Read, they may also be the array of their fields in the order of
their declaration, and members of other names are ignored.  A word of a vocabulary is written as a
string, and `x` may also be read from the object whose one member is `x`, with the value `null`.
-/

namespace EntityQuery.Json

/-- The values of the fields that a record has, in the order of `names`: nothing for one that is left
out, and no record at all from an array with more values than fields. -/
def fields? (names : List String) : Json → Option (List (Option Json))
  | obj ms => some (names.map fun name => Entries.get? name ms)
  | arr vs =>
      if vs.length ≤ names.length then
        some (vs.map some ++ List.replicate (names.length - vs.length) none)
      else none
  | _      => none

/-- The values of a record's fields, if none is left out. -/
def record? (names : List String) (v : Json) : Option (List Json) := do
  (← v.fields? names).mapM id

/-- The word that a value is. -/
def word? : Json → Option String
  | str s           => some s
  | obj [(s, null)] => some s
  | _               => none

/-- The strings of an array of strings. -/
def strings? : Json → Option (List String)
  | arr vs => vs.mapM str?
  | _      => none

/-- The natural number below `2 ^ 64` that a value is. -/
def nat? : Json → Option Nat
  | num (.int (.ofNat n)) => if n < Number.wordLimit then some n else none
  | _                     => none

end EntityQuery.Json
