import Mathlib.Data.List.Nodup
import Mathlib.Data.Set.Card

/-!
# Counting by lists

A set is as large as a list that has each of its elements once.
-/

namespace EntityQuery

variable {α : Type} {s : Set α} {xs : List α}

theorem encard_eq_length (hnodup : xs.Nodup) (h : ∀ x, x ∈ s ↔ x ∈ xs) : s.encard = xs.length := by
  classical
  have hset : s = ↑xs.toFinset := by
    ext x
    rw [h, Finset.mem_coe, List.mem_toFinset]
  rw [hset, Set.encard_coe_eq_coe_finsetCard, List.toFinset_card_of_nodup hnodup]

theorem encard_eq_countP {p : α → Bool} (hnodup : xs.Nodup) (h : ∀ x, x ∈ s ↔ x ∈ xs ∧ p x) :
    s.encard = xs.countP p := by
  rw [List.countP_eq_length_filter]
  exact encard_eq_length (hnodup.filter p) fun x => by rw [h, List.mem_filter]

theorem length_eq_one_iff_existsUnique (hnodup : xs.Nodup) : xs.length = 1 ↔ ∃! x, x ∈ xs := by
  rw [List.length_eq_one_iff]
  constructor
  · rintro ⟨x, rfl⟩
    exact ⟨x, List.mem_singleton_self x, fun y hy => List.mem_singleton.1 hy⟩
  · rintro ⟨x, hx, honly⟩
    have hperm : xs.Perm [x] := (List.perm_ext_iff_of_nodup hnodup (List.nodup_singleton x)).2 fun y => by
      rw [List.mem_singleton]
      exact ⟨honly y, fun h => h ▸ hx⟩
    exact ⟨x, List.perm_singleton.1 hperm⟩

end EntityQuery
