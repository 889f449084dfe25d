import EntityQuery.Proofs.Predicate.Agreement
import EntityQuery.World.Store

/-!
# References are transparent

A condition is evaluated in place of a reference to it, with its name among those being evaluated.  So the
reference and the body differ in the names that are active, and these have a say only in whether a condition
is found to refer to itself:

* `Predicate.eval_of_subset`: with more names active a predicate has the same value, or ends in a cycle.
* `Predicate.eval_with_name`: one more name makes no difference up to the cycle that is told, if its body
  ends in a cycle wherever it is entered.
* `Predicate.Bindings.evaluate_reference`: hence a reference has the value of the body, or both end in a
  cycle.
-/

namespace EntityQuery.Predicate

namespace Agreement

/-- The second attempt is the first, unless it ends in a cycle. -/
def unlessCycle : Agreement where
  Holds x y := Cycles y ∨ y = x
  pure _    := .inr rfl
  failure _ := .inr rfl
  bind      := by
    rintro α β x y f g (hy | rfl) hfg
    · exact .inl (hy.bind g)
    · cases y with
      | ok a    => exact hfg a
      | error e => exact .inr rfl

/-- The attempts are one, or both end in a cycle. -/
def uptoCycle : Agreement where
  Holds x y := x = y ∨ Cycles x ∧ Cycles y
  pure _    := .inl rfl
  failure _ := .inl rfl
  bind      := by
    rintro α β x y f g (rfl | ⟨hx, hy⟩) hfg
    · cases x with
      | ok a    => exact hfg a
      | error e => exact .inl rfl
    · exact .inr ⟨hx.bind f, hy.bind g⟩

/-- Where every attempt agrees with itself, bindings agree with themselves. -/
theorem Between.refl {R : Agreement}
    (hR : ∀ {α : Type} (x : Except PredicateError α), R.Holds x x) (b : Bindings) : R.Between b b where
  conditions := rfl
  lookup _ := hR _
  absent _ := hR _
  holdsComponent _ _ := hR _

end Agreement

/-- **With more conditions active, a predicate has the same value, or ends in a cycle.** -/
theorem eval_of_subset (b : Bindings) {active active' : List String} (h : active ⊆ active') (v : Json) :
    Cycles (eval b active' v) ∨ eval b active' v = eval b active v := by
  have hself : Agreement.unlessCycle.Between b b := .refl (fun _ => Or.inr rfl) b
  refine hself.eval_of_related (fun active active' name body hsubset _ hbody => ?_) h v
  unfold enter
  by_cases hactive' : name ∈ active'
  · rw [if_pos hactive']
    exact .inl ⟨name, rfl⟩
  · have hactive : name ∉ active := fun hmem => hactive' (hsubset hmem)
    rw [if_neg hactive, if_neg hactive']
    exact hbody hactive' (List.cons_subset_cons name hsubset)

/-- A name whose body ends in a cycle wherever it is entered may be active from the start: there it ends
in a cycle at once. -/
theorem eval_with_name (b : Bindings) {name : String} {body : Json}
    (hname : b.scene.conditions.get? name = some body)
    (hcycles : ∀ active, Cycles (eval b (name :: active) body)) {active active' : List String}
    (h : ∀ other, other ∈ active' ↔ other = name ∨ other ∈ active) (v : Json) :
    eval b active v = eval b active' v ∨ Cycles (eval b active v) ∧ Cycles (eval b active' v) := by
  have hself : Agreement.uptoCycle.Between b b := .refl (fun _ => Or.inl rfl) b
  refine hself.eval_of_related (S := fun active active' =>
    ∀ other, other ∈ active' ↔ other = name ∨ other ∈ active)
    (fun active active' other otherBody hmem hother hbody => ?_) h v
  unfold enter
  by_cases hactive : other ∈ active
  · rw [if_pos hactive, if_pos ((hmem other).2 (.inr hactive))]
    exact .inl rfl
  · rw [if_neg hactive]
    by_cases heq : other = name
    · -- Entered here, and refused there.
      subst heq
      cases hname.symm.trans hother
      rw [if_pos ((hmem other).2 (.inl rfl))]
      exact .inr ⟨hcycles active, other, rfl⟩
    · have hactive' : other ∉ active' := fun hmem' => ((hmem other).1 hmem').elim heq hactive
      rw [if_neg hactive']
      refine hbody hactive' fun third => ?_
      rw [List.mem_cons, List.mem_cons, hmem]
      exact or_left_comm

/-- **A reference to a condition has the value of the condition.**  Whatever the scene, the actor and the
candidate are, a reference to a condition and the body of the condition have the same value or end in the
same error, unless both end in a condition that refers to itself, which need not be the same one. -/
theorem Bindings.evaluate_reference (b : Bindings) {name : String} {body : Json}
    (h : b.scene.conditions.get? name = some body) :
    b.evaluate (reference name) = b.evaluate body ∨
      ∃ one other, b.evaluate (reference name) = .error (.conditionCycle one) ∧
        b.evaluate body = .error (.conditionCycle other) := by
  have hreference : b.evaluate (reference name) = eval b [name] body :=
    (eval_reference h []).trans (if_neg List.not_mem_nil)
  rw [hreference]
  rcases eval_of_subset b (List.nil_subset [name]) body with hcycle | hsame
  · -- The body meets its own name, and so it does wherever it is entered.
    have hcycles : ∀ active, Cycles (eval b (name :: active) body) := by
      intro active
      have hsubset : [name] ⊆ name :: active := List.cons_subset_cons name (List.nil_subset active)
      rcases eval_of_subset b hsubset body with hcycle' | hsame
      · exact hcycle'
      · rwa [hsame]
    have hmem : ∀ other, other ∈ [name] ↔ other = name ∨ other ∈ [] := fun other => List.mem_cons
    rcases eval_with_name b h hcycles hmem body with hsame | ⟨⟨other, hbody⟩, one, hname⟩
    · exact .inl hsame.symm
    · exact .inr ⟨one, other, hname, hbody⟩
  · exact .inl hsame

/-- Two conditions that refer to each other. -/
def henAndEgg : Bindings where
  scene := { world := (∅ : Store).world, conditions :=
    ((∅ : Table Json).insert "hen" (reference "egg")).insert "egg" (reference "hen") }
  actor := "hero"

/-- The hen is found to refer to itself by way of the egg, and its body, which is a reference to the egg,
is found to do so by way of the hen. -/
theorem henAndEgg_cycle_both_ways :
    henAndEgg.scene.conditions.get? "hen" = some (reference "egg") ∧
    ∃ one other, one ≠ other ∧ henAndEgg.evaluate (reference "hen") = .error (.conditionCycle one) ∧
      henAndEgg.evaluate (reference "egg") = .error (.conditionCycle other) := by
  have hhen : henAndEgg.scene.conditions.get? "hen" = some (reference "egg") := rfl
  have hegg : henAndEgg.scene.conditions.get? "egg" = some (reference "hen") := rfl
  have hcycle : ∀ {one other : String}, one ≠ other →
      henAndEgg.scene.conditions.get? one = some (reference other) →
      henAndEgg.scene.conditions.get? other = some (reference one) →
      henAndEgg.evaluate (reference one) = .error (.conditionCycle one) := by
    intro one other hne hone hother
    rw [Bindings.evaluate, eval_reference hone, enter, if_neg List.not_mem_nil, eval_reference hother,
      enter, if_neg (by simpa using hne.symm), eval_reference hone, enter,
      if_pos (List.mem_cons_of_mem _ List.mem_cons_self)]
  have hdiffer : henAndEgg.evaluate (reference "hen") ≠ henAndEgg.evaluate (reference "egg") := by
    rw [hcycle (by decide) hhen hegg, hcycle (by decide) hegg hhen]
    simp
  refine ⟨hhen, ?_⟩
  rcases henAndEgg.evaluate_reference hhen with hsame | ⟨one, other, hone, hother⟩
  · exact (hdiffer hsame).elim
  · refine ⟨one, other, ?_, hone, hother⟩
    rintro rfl
    exact hdiffer (hone.trans hother.symm)

end EntityQuery.Predicate
