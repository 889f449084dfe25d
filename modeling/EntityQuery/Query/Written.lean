import EntityQuery.Json.Record
import EntityQuery.Query.Basic

/-!
# Written queries

A query is written as an object with the kind of its topmost node under `type`, and the fields of that
node.  It may also be read from the array of the kind and the fields in the order of their declaration;
`is_array` may be left out of an object.  Below the top, a kind may be given by its number as well.

Reading takes one node at a time: `Query.Node.ofJson?` leaves the branches as they are written, and they
are smaller than the whole (`Query.Node.sizeOf_lt_of_mem_branches`), so reading a query comes to an end.
-/

namespace EntityQuery

namespace Root

/-- The root of a name that says it all. -/
def ofName? (name : String) : Option Root :=
  if name = "actor" then some actor
  else if name = "location" then some location
  else if name = "none" then some none
  else Option.none

def toJson : Root → Json
  | actor              => .str "actor"
  | location           => .str "location"
  | entities component => .obj [("entities", .obj [("component", .str component)])]
  | none               => .str "none"

/-- The root that a value writes.  Within a node, a name may come with an empty object as well as with
`null`, and the record of a component may be an array. -/
def ofJson? (withinNode : Bool) : Json → Option Root
  | .str name              => ofName? name
  | .obj [(name, payload)] =>
      if name = "entities" then
        match payload.record? ["component"], payload with
        | some [.str component], .obj _ => some (entities component)
        | some [.str component], _      => if withinNode then some (entities component) else Option.none
        | _,                     _      => Option.none
      else match payload with
        | .null   => ofName? name
        | .obj [] => if withinNode then ofName? name else Option.none
        | _       => Option.none
  | _                      => Option.none

end Root

namespace Query

/-- The names of the fields of a node, in the order of their declaration. -/
def Kind.fieldNames : Kind → List String
  | source         => ["kind"]
  | step           => ["field", "is_array", "parent"]
  | filter         => ["logic", "parent"]
  | union          => ["left", "right"]
  | arrayIteration => ["parent"]

/-- The kind that a value names. -/
def Kind.ofJson? (v : Json) : Option Kind := do
  ofName? (← v.word?)

/-- The kind that a value under `type` stands for: by its name or, below the top, by its number. -/
def Kind.ofTag? (atTop : Bool) : Json → Option Kind
  | .str name              => ofName? name
  | .num (.int (.ofNat n)) => if atTop then none else all[n]?
  | _                      => none

/-- The written form of a query. -/
def toJson : Query → Json
  | root r      => .obj [("kind", r.toJson), ("type", .str Kind.source.name)]
  | step s a p  => .obj [("field", .str s), ("is_array", .bool a), ("parent", p.toJson),
                      ("type", .str Kind.step.name)]
  | filter l p  => .obj [("logic", l), ("parent", p.toJson), ("type", .str Kind.filter.name)]
  | union l r   => .obj [("left", l.toJson), ("right", r.toJson), ("type", .str Kind.union.name)]
  | flatten p   => .obj [("parent", p.toJson), ("type", .str Kind.arrayIteration.name)]

namespace Node

/-- The branches of a node. -/
def branches {β : Type} : Node β → List β
  | root _     => []
  | step _ _ p => [p]
  | filter _ p => [p]
  | union l r  => [l, r]
  | flatten p  => [p]

/-- What stands under `type`, and the record of the fields. -/
def split? : Json → Option (Json × Json)
  | .obj ms            => (Entries.get? "type" ms).map (·, .obj ms)
  | .arr (tag :: rest) => some (tag, .arr rest)
  | _                  => none

/-- The node of a kind with these fields. -/
def ofFields? : Kind → List (Option Json) → Option (Node Json)
  | .source,         [some r]                          => (Root.ofJson? true r).map root
  | .step,           [some (.str s), none, some p]     => some (step s false p)
  | .step,           [some (.str s), some (.bool a), some p] => some (step s a p)
  | .filter,         [some l, some p]                  => some (filter l p)
  | .union,          [some l, some r]                  => some (union l r)
  | .arrayIteration, [some p]                          => some (flatten p)
  | _,               _                                 => none

/-- The topmost node of a written query, its branches still written. -/
def ofJson? (atTop : Bool) (v : Json) : Option (Node Json) := do
  let (tag, record) ← split? v
  let kind ← Kind.ofTag? atTop tag
  ofFields? kind (← record.fields? kind.fieldNames)

theorem mem_fields_of_mem_branches {kind : Kind} {fields : List (Option Json)} {n : Node Json}
    (h : ofFields? kind fields = some n) {w : Json} (hw : w ∈ n.branches) : some w ∈ fields := by
  unfold ofFields? at h
  split at h
  · obtain ⟨r, -, rfl⟩ := Option.map_eq_some_iff.1 h
    simp [branches] at hw
  · cases h; simp_all [branches]
  · cases h; simp_all [branches]
  · cases h; simp_all [branches]
  · cases h; simp_all [branches]
  · cases h; simp_all [branches]
  · cases h

end Node

end Query

namespace Json

theorem sizeOf_lt_of_get? {name : String} {v : Json} {members : List (String × Json)}
    (h : Entries.get? name members = some v) : sizeOf v < sizeOf members := by
  have hlt := List.sizeOf_lt_of_mem (Entries.mem_of_get? h)
  simp only [Prod.mk.sizeOf_spec] at hlt
  omega

/-- The fields of a record are smaller than the record. -/
theorem sizeOf_lt_of_mem_fields? {names : List String} {v w : Json} {fields : List (Option Json)}
    (h : v.fields? names = some fields) (hw : some w ∈ fields) : sizeOf w < sizeOf v := by
  cases v with
  | obj ms =>
      obtain rfl : _ = fields := Option.some.inj h
      obtain ⟨name, -, hname⟩ := List.mem_map.1 hw
      have := sizeOf_lt_of_get? hname
      simp only [Json.obj.sizeOf_spec]
      omega
  | arr vs =>
      simp only [fields?] at h
      split at h
      · obtain rfl : _ = fields := Option.some.inj h
        rcases List.mem_append.1 hw with hw | hw
        · obtain ⟨w', hw', heq⟩ := List.mem_map.1 hw
          cases heq
          have := List.sizeOf_lt_of_mem hw'
          simp only [Json.arr.sizeOf_spec]
          omega
        · cases (List.mem_replicate.1 hw).2
      · cases h
  | _ => cases h

end Json

namespace Query

/-- The branches of a written node are smaller than the node. -/
theorem Node.sizeOf_lt_of_mem_branches {atTop : Bool} {v w : Json} {n : Node Json}
    (h : Node.ofJson? atTop v = some n) (hw : w ∈ n.branches) : sizeOf w < sizeOf v := by
  simp only [Node.ofJson?, Option.bind_eq_bind, Option.bind_eq_some_iff] at h
  obtain ⟨⟨tag, record⟩, hsplit, kind, -, fields, hfields, hn⟩ := h
  have hlt := Json.sizeOf_lt_of_mem_fields? hfields (Node.mem_fields_of_mem_branches hn hw)
  have hle : sizeOf record ≤ sizeOf v := by
    unfold Node.split? at hsplit
    split at hsplit
    · obtain ⟨t, -, heq⟩ := Option.map_eq_some_iff.1 hsplit
      cases heq
      exact Nat.le_refl _
    · cases hsplit
      simp
    · cases hsplit
  exact Nat.lt_of_lt_of_le hlt hle

/-- The query that a value writes. -/
def ofWritten? (atTop : Bool) (v : Json) : Option Query :=
  match _h : Node.ofJson? atTop v with
  | none                => none
  | some (.root r)      => some (root r)
  | some (.step s a p)  => (ofWritten? false p).map (step s a)
  | some (.filter l p)  => (ofWritten? false p).map (filter l)
  | some (.union l r)   => do return union (← ofWritten? false l) (← ofWritten? false r)
  | some (.flatten p)   => (ofWritten? false p).map flatten
termination_by v
decreasing_by all_goals exact Node.sizeOf_lt_of_mem_branches _h (by simp [Node.branches])

/-- The query that a value writes as a whole. -/
def ofJson? (v : Json) : Option Query :=
  ofWritten? true v

end Query

end EntityQuery
