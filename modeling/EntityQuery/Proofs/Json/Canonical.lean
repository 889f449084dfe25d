import EntityQuery.Json.Document
import EntityQuery.Proofs.Support.Entries

/-!
# Canonical values

In a canonical value the members of every object ascend, so a name stands for one member at most.  Data has
no other values in it:

* `Json.canonical_of_ofText?`: whatever a text denotes is canonical.
* `Json.Canonical.member`: so are the members of what is canonical.
* `Json.canonical_object`: and so is an object made of canonical values.
-/

namespace EntityQuery

namespace Json

variable {members : List (String × Json)}

theorem canonical_object (h : ∀ m ∈ members, m.2.Canonical) : (object members).Canonical :=
  .obj _ (.ofList members) fun m hm => h m (Entries.mem_of_mem_ofList hm)

theorem Canonical.member {v part : Json} {name : String} (hv : v.Canonical)
    (h : v.member? name = some part) : part.Canonical := by
  cases hv with
  | null | bool _ | num _ | str _ | arr _ _ => cases h
  | obj members _ hcanonical                => exact hcanonical _ (Entries.mem_of_get? h)

end Json

namespace Document

mutual

theorem canonical_of_value? : ∀ {d : Document} {v : Json}, d.value? = some v → v.Canonical
  | .null,    _, h => by
      cases h
      exact .null
  | .bool b,  _, h => by
      cases h
      exact .bool b
  | .num l,   _, h => by
      obtain ⟨n, -, rfl⟩ := Option.map_eq_some_iff.1 h
      exact .num n
  | .text ps, _, h => by
      obtain ⟨s, -, rfl⟩ := Option.map_eq_some_iff.1 h
      exact .str s
  | .arr ds,  _, h => by
      obtain ⟨vs, hvs, rfl⟩ := Option.map_eq_some_iff.1 h
      exact .arr vs (canonical_of_itemValues? hvs)
  | .obj ms,  _, h => by
      obtain ⟨members, hmembers, rfl⟩ := Option.map_eq_some_iff.1 h
      exact Json.canonical_object (canonical_of_memberValues? hmembers)

theorem canonical_of_itemValues? :
    ∀ {ds : List Document} {vs : List Json}, itemValues? ds = some vs → ∀ v ∈ vs, v.Canonical
  | [],      _, h => by
      cases h
      exact nofun
  | d :: ds, _, h => by
      obtain ⟨v, hv, h⟩ := Option.bind_eq_some_iff.1 h
      obtain ⟨vs, hvs, h⟩ := Option.bind_eq_some_iff.1 h
      cases h
      exact List.forall_mem_cons.2 ⟨canonical_of_value? hv, canonical_of_itemValues? hvs⟩

theorem canonical_of_memberValues? :
    ∀ {ms : List (List Piece × Document)} {members : List (String × Json)},
      memberValues? ms = some members → ∀ m ∈ members, m.2.Canonical
  | [],           _, h => by
      cases h
      exact nofun
  | (n, d) :: ms, _, h => by
      obtain ⟨name, -, h⟩ := Option.bind_eq_some_iff.1 h
      obtain ⟨v, hv, h⟩ := Option.bind_eq_some_iff.1 h
      obtain ⟨members, hmembers, h⟩ := Option.bind_eq_some_iff.1 h
      cases h
      exact List.forall_mem_cons.2 ⟨canonical_of_value? hv, canonical_of_memberValues? hmembers⟩

end

end Document

/-- **Whatever a text denotes is canonical.** -/
theorem Json.canonical_of_ofText? {s : String} {v : Json} (h : ofText? s = some v) : v.Canonical := by
  obtain ⟨d, -, hd⟩ := Option.bind_eq_some_iff.1 h
  exact Document.canonical_of_value? hd

end EntityQuery
