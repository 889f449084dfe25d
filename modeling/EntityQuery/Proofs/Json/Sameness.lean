import EntityQuery.Json.Basic

/-!
# Values that equal themselves

Equality of values is that of what they say, and a NaN equals nothing, not even itself.  Data has no NaN in
it.

* `Json.WithoutNaN.same_self`: a value without a NaN equals itself.
-/

namespace EntityQuery

open Float.Model (UnpackedFloat)

theorem beq_self_of_unpacked {x : UnpackedFloat} (h : ¬ x.isNaN) : x.beq x := by
  cases x with
  | notANumber             => exact (h rfl).elim
  | zero sign              => rfl
  | infinity sign          => cases sign <;> rfl
  | finite sign mantissa e =>
      have hequal : (compare e e).then (compare mantissa mantissa) = .eq := by
        rw [Std.compare_self, Std.compare_self, Ordering.then]
      cases sign with
      | positive => exact beq_of_eq (congrArg some hequal)
      | negative => exact beq_of_eq (congrArg (some ∘ Ordering.swap) hequal)

theorem Number.same_self {n : Number} (h : ∀ x, n = .float x → ¬ x.isNaN) : n.same n := by
  cases n with
  | int i   => exact decide_eq_true rfl
  | float x => exact beq_self_of_unpacked (h x rfl)

namespace Json

/-- No number in the value is a NaN. -/
inductive WithoutNaN : Json → Prop where
  | null : WithoutNaN null
  | bool (b : Bool) : WithoutNaN (bool b)
  | num (n : Number) (h : ∀ x, n = .float x → ¬ x.isNaN) : WithoutNaN (num n)
  | str (s : String) : WithoutNaN (str s)
  | arr (items : List Json) (h : ∀ v ∈ items, WithoutNaN v) : WithoutNaN (arr items)
  | obj (members : List (String × Json)) (h : ∀ m ∈ members, WithoutNaN m.2) : WithoutNaN (obj members)

theorem sameItems_self {vs : List Json} (h : ∀ v ∈ vs, v.same v) : sameItems vs vs := by
  induction vs with
  | nil          => rfl
  | cons v vs ih =>
      obtain ⟨hv, hvs⟩ := List.forall_mem_cons.1 h
      rw [sameItems, hv, ih hvs, Bool.and_self]

theorem sameMembers_self {ms : List (String × Json)} (h : ∀ m ∈ ms, m.2.same m.2) : sameMembers ms ms := by
  induction ms with
  | nil          => rfl
  | cons m ms ih =>
      obtain ⟨hm, hms⟩ := List.forall_mem_cons.1 h
      rw [sameMembers, hm, ih hms, decide_eq_true rfl, Bool.and_self, Bool.and_self]

/-- **A value without a NaN equals itself.** -/
theorem WithoutNaN.same_self {v : Json} (h : v.WithoutNaN) : v.same v := by
  induction h with
  | null | bool _ | str _ => simp [same]
  | num n h               => exact Number.same_self h
  | arr items _ ih        => exact sameItems_self ih
  | obj members _ ih      => exact sameMembers_self ih

end Json

end EntityQuery
