import EntityQuery.Query.Basic

/-!
# The nodes of a query

A node of a query stands at a place: the query of which it is the topmost node, and the depth at which it is
resolved.  A resolution goes through the places of a query from the roots upwards, through those of a branch
before those of the next one (`Query.places`).
-/

namespace EntityQuery.Query

/-- The queries that the topmost node goes on from, the left one first. -/
def branches : Query → List Query
  | root _          => []
  | step _ _ parent => [parent]
  | filter _ parent => [parent]
  | union l r       => [l, r]
  | flatten parent  => [parent]

structure Place where
  query : Query
  depth : Nat
deriving DecidableEq

/-- The places of all nodes, the topmost one at a depth: each node after its branches, and all nodes of a
left branch before those of the right one. -/
def places : Query → (depth : Nat) → List Place
  | q@(root _),     d => [⟨q, d⟩]
  | q@(step _ _ p), d => p.places (d + 1) ++ [⟨q, d⟩]
  | q@(filter _ p), d => p.places (d + 1) ++ [⟨q, d⟩]
  | q@(union l r),  d => l.places (d + 1) ++ r.places (d + 1) ++ [⟨q, d⟩]
  | q@(flatten p),  d => p.places (d + 1) ++ [⟨q, d⟩]

theorem places_eq (q : Query) (d : Nat) :
    q.places d = q.branches.flatMap (·.places (d + 1)) ++ [⟨q, d⟩] := by
  cases q with
  | root _                          => rfl
  | step | filter | flatten | union => simp [places, branches]

example :
    (union (root .actor) (flatten (root .none))).places 0 =
      [⟨root .actor, 1⟩, ⟨root .none, 2⟩, ⟨flatten (root .none), 1⟩,
        ⟨union (root .actor) (flatten (root .none)), 0⟩] :=
  rfl

/-- What holds of a query if it holds of its branches, holds of all queries. -/
theorem branch_induction {P : Query → Prop} (h : ∀ q, (∀ p ∈ branches q, P p) → P q) (q : Query) :
    P q := by
  induction q with
  | root _                                       => exact h _ nofun
  | step _ _ p ih | filter _ p ih | flatten p ih =>
      exact h _ fun p' hp => List.mem_singleton.1 hp ▸ ih
  | union l r ihl ihr                            =>
      refine h _ fun p hp => ?_
      rcases List.mem_cons.1 hp with rfl | hp
      · exact ihl
      · exact List.mem_singleton.1 hp ▸ ihr

end EntityQuery.Query
