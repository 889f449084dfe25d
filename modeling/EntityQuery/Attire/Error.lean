import EntityQuery.Json.Basic

/-!
# Why data describes no attire
-/

namespace EntityQuery.Attire

/-- A worn item is an entity; this is its identifier. -/
abbrev ItemId := String

inductive AttireError where
  /-- Equipment that is neither `null` nor an object. -/
  | malformedEquipment (found : Json.Kind)
  /-- The coverage of an item that does not have the form of one. -/
  | malformedCoverage (item : ItemId) (reason : String := "")
deriving DecidableEq

def AttireError.message : AttireError → String
  | malformedEquipment found =>
      "malformed equipment data: equipped must be an object, found " ++ found.name
  | malformedCoverage item reason =>
      "malformed coverage mapping for item '" ++ item ++ "': " ++ reason

end EntityQuery.Attire
