import EntityQuery.Proofs.Candidate.Union
import Mathlib.Logic.Function.Iterate

/-!
# Leaves of nested lists

A list among candidates may be taken apart into its elements (`Candidate.elements`), and lists among those
again.  Taken apart all the way down, what is left of a candidate are its leaves (`Candidate.leaves`).

* `Candidate.nestingOf_flatMap_elements`: lists of candidates that are taken apart are nested one level less
  deep.
* `Candidate.iterate_elements`: taken apart as often as they are nested, or more often, they come to their
  leaves, in order.
-/

namespace EntityQuery

namespace Json

mutual

/-- How deep lists are nested in a value.  Objects are not looked into. -/
def nesting : Json → Nat
  | arr vs => nestingItems vs + 1
  | _      => 0

/-- How deep lists are nested in the elements of a list. -/
def nestingItems : List Json → Nat
  | []      => 0
  | v :: vs => max (nesting v) (nestingItems vs)

end

mutual

/-- The leaves of an element of a list, from left to right: there are none in `null`, and a text names an
entity. -/
def leaves : Json → List Candidate
  | null   => []
  | arr vs => leavesOfItems vs
  | v      => [.ofFieldValue v]

/-- The leaves of all elements of a list. -/
def leavesOfItems : List Json → List Candidate
  | []      => []
  | v :: vs => leaves v ++ leavesOfItems vs

end

end Json

namespace Candidate

/-- How deep lists are nested in a candidate. -/
def nesting : Candidate → Nat
  | value v => v.nesting
  | _       => 0

/-- How deep lists are nested in candidates. -/
def nestingOf (cs : List Candidate) : Nat :=
  (cs.map nesting).foldr max 0

/-- What is left of a candidate, once lists are taken apart all the way down. -/
def leaves : Candidate → List Candidate
  | value (.arr vs) => Json.leavesOfItems vs
  | c               => [c]

/-- What is left of a candidate, once it is taken apart, if it is a list: the elements but for `null`, those
that are texts as entities. -/
def elements : Candidate → List Candidate
  | value (.arr vs) => (vs.filter (¬ ·.isNull)).map ofFieldValue
  | c               => [c]

variable {c : Candidate} {cs : List Candidate} {k : Nat}

/-! ### How deep lists are nested -/

@[simp] theorem nestingOf_nil : nestingOf [] = 0 := rfl

@[simp] theorem nestingOf_cons (c : Candidate) (cs : List Candidate) :
    nestingOf (c :: cs) = max c.nesting (nestingOf cs) := rfl

@[simp] theorem nestingOf_append (cs ds : List Candidate) :
    nestingOf (cs ++ ds) = max (nestingOf cs) (nestingOf ds) := by
  induction cs with
  | nil          => simp
  | cons c cs ih => simp [ih, Nat.max_assoc]

theorem nestingOf_le_iff : nestingOf cs ≤ k ↔ ∀ c ∈ cs, c.nesting ≤ k := by
  induction cs with
  | nil          => simp
  | cons c cs ih => rw [nestingOf_cons, Nat.max_le, ih, List.forall_mem_cons]

/-- Candidates are nested as deep as others if they are the same, however often each is there. -/
theorem nestingOf_congr {ds : List Candidate} (h : ∀ c, c ∈ cs ↔ c ∈ ds) : nestingOf cs = nestingOf ds :=
  Nat.le_antisymm (nestingOf_le_iff.2 fun c hc => nestingOf_le_iff.1 (Nat.le_refl _) c ((h c).1 hc))
    (nestingOf_le_iff.2 fun c hc => nestingOf_le_iff.1 (Nat.le_refl _) c ((h c).2 hc))

theorem nesting_ofFieldValue (v : Json) : (ofFieldValue v).nesting = v.nesting := by
  cases v <;> rfl

theorem nestingOf_items (vs : List Json) :
    nestingOf ((vs.filter (¬ ·.isNull)).map ofFieldValue) = Json.nestingItems vs := by
  induction vs with
  | nil          => rfl
  | cons v vs ih =>
      cases v <;> simp [Json.nestingItems, Json.isNull, Json.nesting, nesting_ofFieldValue, ← ih]

/-- What is no list is not nested. -/
theorem nesting_eq_zero_iff : c.nesting = 0 ↔ ∀ vs, c ≠ .value (.arr vs) := by
  cases c with
  | entity id    => simp [nesting]
  | descriptor d => simp [nesting]
  | value v      => cases v <;> simp [nesting, Json.nesting]

/-! ### Lists taken apart -/

theorem elements_of_nesting (h : c.nesting = 0) : c.elements = [c] := by
  unfold elements
  split
  · exact (nesting_eq_zero_iff.1 h _ rfl).elim
  · rfl

theorem leaves_of_nesting (h : c.nesting = 0) : c.leaves = [c] := by
  unfold leaves
  split
  · exact (nesting_eq_zero_iff.1 h _ rfl).elim
  · rfl

/-- **A list that is taken apart is nested one level less deep.** -/
theorem nestingOf_elements (c : Candidate) : nestingOf c.elements = c.nesting - 1 := by
  by_cases h : c.nesting = 0
  · rw [elements_of_nesting h, nestingOf_cons, h]
    rfl
  · rw [nesting_eq_zero_iff, not_forall_not] at h
    obtain ⟨vs, rfl⟩ := h
    exact nestingOf_items vs

theorem nestingOf_flatMap_elements (cs : List Candidate) :
    nestingOf (cs.flatMap elements) = nestingOf cs - 1 := by
  induction cs with
  | nil          => rfl
  | cons c cs ih =>
      rw [List.flatMap_cons, nestingOf_append, nestingOf_elements, ih, nestingOf_cons]
      omega

theorem nestingOf_iterate_elements (k : Nat) (cs : List Candidate) :
    nestingOf ((List.flatMap elements)^[k] cs) = nestingOf cs - k := by
  induction k with
  | zero      => rfl
  | succ k ih => rw [Function.iterate_succ_apply', nestingOf_flatMap_elements, ih, Nat.sub_sub]

/-- Taking apart what is not nested leaves it as it is. -/
theorem flatMap_elements_of_nesting (h : nestingOf cs = 0) : cs.flatMap elements = cs := by
  have hcs := nestingOf_le_iff.1 (Nat.le_of_eq h)
  rw [List.flatMap_congr fun c hc => elements_of_nesting (Nat.le_zero.1 (hcs c hc)),
    List.flatMap_singleton']

theorem flatMap_leaves_items (vs : List Json) :
    ((vs.filter (¬ ·.isNull)).map ofFieldValue).flatMap leaves = Json.leavesOfItems vs := by
  induction vs with
  | nil          => rfl
  | cons v vs ih =>
      rw [Json.leavesOfItems, ← ih]
      cases v <;> rfl

/-- The leaves of a candidate are those of what is left of it, once it is taken apart. -/
theorem flatMap_leaves_elements (c : Candidate) : c.elements.flatMap leaves = c.leaves := by
  by_cases h : c.nesting = 0
  · rw [elements_of_nesting h, List.flatMap_singleton]
  · rw [nesting_eq_zero_iff, not_forall_not] at h
    obtain ⟨vs, rfl⟩ := h
    exact flatMap_leaves_items vs

/-- **Lists that are taken apart as often as they are nested come to their leaves**, in order. -/
theorem iterate_elements (h : nestingOf cs ≤ k) :
    (List.flatMap elements)^[k] cs = cs.flatMap leaves := by
  induction k generalizing cs with
  | zero      =>
      have hcs := nestingOf_le_iff.1 h
      rw [List.flatMap_congr fun c hc => leaves_of_nesting (Nat.le_zero.1 (hcs c hc)),
        List.flatMap_singleton']
      rfl
  | succ k ih =>
      have hless : nestingOf (cs.flatMap elements) ≤ k := by
        rw [nestingOf_flatMap_elements]
        omega
      rw [Function.iterate_succ_apply, ih hless, List.flatMap_assoc,
        List.flatMap_congr fun c _ => flatMap_leaves_elements c]

/-! ### Without descriptors -/

/-- To take lists apart makes no descriptors, and loses none. -/
theorem descriptor_mem_elements_iff {d : Descriptor} :
    .descriptor d ∈ c.elements ↔ c = .descriptor d := by
  unfold elements
  split
  · simp only [List.mem_map, reduceCtorEq, iff_false, not_exists, not_and]
    intro v _ h
    cases v <;> cases h
  · rw [List.mem_singleton, eq_comm]

theorem descriptor_mem_iterate_iff {d : Descriptor} (k : Nat) :
    .descriptor d ∈ (List.flatMap elements)^[k] cs ↔ .descriptor d ∈ cs := by
  induction k with
  | zero      => rfl
  | succ k ih =>
      rw [Function.iterate_succ_apply', ← ih, List.mem_flatMap]
      constructor
      · rintro ⟨c, hc, hd⟩
        rwa [← descriptor_mem_elements_iff.1 hd]
      · exact fun hd => ⟨_, hd, descriptor_mem_elements_iff.2 rfl⟩

end Candidate

/-! ### Sets without descriptors -/

namespace CandidateSet

variable {cs : List Candidate} (h : ∀ d, Candidate.descriptor d ∉ cs)

include h

/-- Without descriptors among them, candidates of one key are equal. -/
theorem Consistent.of_no_descriptor : Consistent cs := by
  intro x hx y hy hkey
  cases x with
  | entity id      =>
      cases y <;> cases hkey
      rfl
  | value v        =>
      cases y <;> cases hkey
      rfl
  | descriptor d   => exact (h d hx).elim

theorem consistent_iterate_elements (k : Nat) :
    Consistent ((List.flatMap Candidate.elements)^[k] cs) :=
  .of_no_descriptor fun d => (Candidate.descriptor_mem_iterate_iff k).not.2 (h d)

theorem nestingOf_ofList_iterate (k : Nat) :
    Candidate.nestingOf (ofList ((List.flatMap Candidate.elements)^[k] cs)).toList =
      Candidate.nestingOf cs - k := by
  rw [← Candidate.nestingOf_iterate_elements]
  exact Candidate.nestingOf_congr fun x => mem_ofList_iff (consistent_iterate_elements h k)

end CandidateSet

end EntityQuery
