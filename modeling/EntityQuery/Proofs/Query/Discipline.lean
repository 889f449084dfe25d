import EntityQuery.Attire.BodySlot
import EntityQuery.Attire.View
import EntityQuery.Query.Basic

/-!
# Queries and descriptors

A scalar step to a view makes descriptors, a union passes them on, and a step to a body slot or a
flattening takes them up.  All other nodes have no use for them (`Query.Refuses`).  So the shape of a
query tells where descriptors may be left (`Query.LeavesDescriptors`), and whether any may arrive where
it is of no use (`Query.WellFormed`).
-/

namespace EntityQuery

open Attire (BodySlot View)

namespace Query

/-- The shapes of queries that may come to descriptors: a scalar step to a view, and a union with such a
branch. -/
def LeavesDescriptors : Query → Prop
  | .step field isArray _ => (View.ofField? field).isSome ∧ isArray = false
  | .union left right     => left.LeavesDescriptors ∨ right.LeavesDescriptors
  | _                     => False

/-- The nodes that have no use for a descriptor: a filter, a step to a view, and a step along a field that
is no body slot. -/
def Refuses : Query → Prop
  | .filter _ _     => True
  | .step field _ _ => (View.ofField? field).isSome ∨ BodySlot.ofName? field = none
  | _               => False

/-- At no node that refuses descriptors does the branch leave them. -/
def Disciplined : Query → Prop
  | .root _                 => True
  | q@(.step _ _ parent)    => (q.Refuses → ¬ parent.LeavesDescriptors) ∧ parent.Disciplined
  | q@(.filter _ parent)    => (q.Refuses → ¬ parent.LeavesDescriptors) ∧ parent.Disciplined
  | .union left right       => left.Disciplined ∧ right.Disciplined
  | .flatten parent         => parent.Disciplined

/-- Neither at a node that refuses descriptors nor in the answer may one be left. -/
structure WellFormed (q : Query) : Prop where
  disciplined : q.Disciplined
  answers : ¬ q.LeavesDescriptors

instance LeavesDescriptors.decide : (q : Query) → Decidable q.LeavesDescriptors
  | .root _           => isFalse id
  | .step _ _ _       => inferInstanceAs (Decidable (_ ∧ _))
  | .filter _ _       => isFalse id
  | .union left right =>
      have := decide left
      have := decide right
      inferInstanceAs (Decidable (_ ∨ _))
  | .flatten _        => isFalse id

instance (q : Query) : Decidable q.Refuses :=
  match q with
  | .root _     => isFalse id
  | .step _ _ _ => inferInstanceAs (Decidable (_ ∨ _))
  | .filter _ _ => isTrue trivial
  | .union _ _  => isFalse id
  | .flatten _  => isFalse id

instance Disciplined.decide : (q : Query) → Decidable q.Disciplined
  | .root _           => isTrue trivial
  | .step _ _ parent  =>
      have := decide parent
      inferInstanceAs (Decidable ((_ → ¬ parent.LeavesDescriptors) ∧ _))
  | .filter _ parent  =>
      have := decide parent
      inferInstanceAs (Decidable ((_ → ¬ parent.LeavesDescriptors) ∧ _))
  | .union left right =>
      have := decide left
      have := decide right
      inferInstanceAs (Decidable (_ ∧ _))
  | .flatten parent   => decide parent

instance (q : Query) : Decidable q.WellFormed :=
  decidable_of_iff (q.Disciplined ∧ ¬ q.LeavesDescriptors)
    ⟨fun h => ⟨h.1, h.2⟩, fun h => ⟨h.disciplined, h.answers⟩⟩

end Query

end EntityQuery
