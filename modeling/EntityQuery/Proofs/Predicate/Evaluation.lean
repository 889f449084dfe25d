import EntityQuery.Predicate.Evaluation
import EntityQuery.Proofs.Support.Attempt

/-!
# Evaluation in general

* `Predicate.eval_induction`: what holds of a predicate if it holds of its parts, and of the conditions
  that a reference can still enter, holds of all predicates.
* `Predicate.not_cycles_lookup`, `Predicate.not_cycles_call`: neither what is looked up nor a function ends in
  a cycle of conditions.
* `Predicate.Function.complains_of_apply`: a function fails for its operands only.
-/

namespace EntityQuery.Predicate

/-! ### The course of an evaluation -/

theorem sizeOf_lt_of_mem_operands {v args : Json} {name : String} (h : v ∈ operands args) :
    sizeOf v < sizeOf (Json.obj [(name, args)]) := by
  have hmem := List.sizeOf_lt_of_mem h
  have hargs := sizeOf_operands_lt args
  simp only [Json.obj.sizeOf_spec, List.cons.sizeOf_spec, List.nil.sizeOf_spec, Prod.mk.sizeOf_spec]
  omega

/-- Induction along an evaluation: to the parts of a predicate, and to the conditions that are not being
evaluated. -/
theorem eval_induction (b : Bindings) {P : List String → Json → Prop}
    (h : ∀ active v, (∀ part, sizeOf part < sizeOf v → P active part) →
      (∀ name body, b.scene.conditions.get? name = some body → name ∉ active →
        P (name :: active) body) → P active v)
    (active : List String) (v : Json) : P active v :=
  h active v (fun part _ => eval_induction b h active part)
    (fun name body _ _ => eval_induction b h (name :: active) body)
termination_by ((pending b active).length, sizeOf v)
decreasing_by
  · exact .right _ ‹_›
  · exact .left _ _ (pending_lt ‹_› ‹_›)

theorem Operator.ofName_eq_conditionRef {name : String} (h : Operator.ofName name = .conditionRef) :
    name = "condition_ref" := by
  grind [Operator.ofName]

/-- What a reference to a condition comes to. -/
def enter (b : Bindings) (active : List String) (name : String) (body : Json) :
    Except PredicateError Json :=
  if name ∈ active then .error (.conditionCycle name) else eval b (name :: active) body

theorem evalCondition_eq (b : Bindings) (active : List String) (vs : List Json) :
    evalCondition b active vs = (do
      match ← evalFirst b active vs with
      | .str name =>
          match b.scene.conditions.get? name with
          | none      => .error (.unknownCondition name)
          | some body => enter b active name body
      | _ => .error (.invalidArguments "condition_ref" "expects a condition id")) := by
  rw [evalCondition]
  refine congrArg (evalFirst b active vs >>= ·) (funext fun v => ?_)
  cases v
  case str name =>
    dsimp only
    split
    · rename_i h
      rw [h]
    · rename_i h
      rw [h]
      rfl
  all_goals rfl

/-- A reference to a condition of that name. -/
def reference (name : String) : Json :=
  .obj [("condition_ref", .str name)]

theorem eval_str (b : Bindings) (active : List String) (s : String) :
    eval b active (.str s) = .ok (.str s) := by
  rw [eval.eq_def]

theorem eval_reference {b : Bindings} {name : String} {body : Json}
    (h : b.scene.conditions.get? name = some body) (active : List String) :
    eval b active (reference name) = enter b active name body := by
  rw [eval.eq_def]
  show evalOperation b active .conditionRef [.str name] = enter b active name body
  rw [evalOperation.eq_def]
  show evalCondition b active [.str name] = enter b active name body
  rw [evalCondition_eq, evalFirst, eval_str]
  dsimp only [bind, Except.bind]
  rw [h]

/-- A variable has the value that its path leads to. -/
theorem Bindings.evaluate_variable (b : Bindings) (path : String) :
    b.evaluate (.obj [("var", .str path)]) = b.lookup path := by
  rw [Bindings.evaluate, eval.eq_def]
  show evalOperation b [] .variable [.str path] = b.lookup path
  rw [evalOperation.eq_def]
  show evalVariable b [] [.str path] = b.lookup path
  rw [evalVariable, evalFirst, eval_str]
  exact bind_pure (b.lookup path)

/-! ### What ends in a cycle -/

/-- The attempt ends in a condition that refers to itself. -/
def Cycles {α : Type} (x : Except PredicateError α) : Prop :=
  ∃ name, x = .error (.conditionCycle name)

theorem Cycles.bind {α β : Type} {x : Except PredicateError α} (h : Cycles x)
    (f : α → Except PredicateError β) : Cycles (x >>= f) := by
  obtain ⟨name, rfl⟩ := h
  exact ⟨name, rfl⟩

theorem not_cycles_ok {α : Type} (a : α) : ¬ Cycles (.ok a) := by
  rintro ⟨name, ⟨⟩⟩

theorem not_cycles_bind {α β : Type} {x : Except PredicateError α} {f : α → Except PredicateError β}
    (hx : ¬ Cycles x) (hf : ∀ a, ¬ Cycles (f a)) : ¬ Cycles (x >>= f) := by
  rintro ⟨name, h⟩
  rcases Attempt.bind_eq_error.1 h with h | ⟨a, -, h⟩
  · exact hx ⟨name, h⟩
  · exact hf a ⟨name, h⟩

section LookUp

variable (b : Bindings)

theorem not_cycles_entityPath (id : EntityId) (path : List String) :
    ¬ Cycles (b.entityPath id path) := by
  unfold Bindings.entityPath
  split <;> try split
  all_goals rintro ⟨name, ⟨⟩⟩

theorem not_cycles_subjectPath (path : List String) : ¬ Cycles (b.subjectPath path) := by
  unfold Bindings.subjectPath
  split
  · exact not_cycles_entityPath b _ path
  all_goals rintro ⟨name, ⟨⟩⟩

theorem not_cycles_lookup (path : String) : ¬ Cycles (b.lookup path) := by
  unfold Bindings.lookup
  split
  · exact not_cycles_subjectPath b []
  · rename_i root rest _
    by_cases hentity : root = "entity"
    · rw [if_pos hentity]
      exact not_cycles_subjectPath b rest
    by_cases hactor : root = "actor"
    · rw [if_neg hentity, if_pos hactor]
      exact not_cycles_entityPath b b.actor rest
    by_cases hlocation : root = "location"
    · rw [if_neg hentity, if_neg hactor, if_pos hlocation]
      split
      · exact not_cycles_entityPath b _ rest
      · exact not_cycles_ok _
    · rw [if_neg hentity, if_neg hactor, if_neg hlocation]
      split <;> rintro ⟨name, ⟨⟩⟩

theorem not_cycles_absent (path : String) : ¬ Cycles (absent b path) := by
  have hlookup := not_cycles_lookup b path
  unfold absent
  split
  · exact not_cycles_ok _
  · exact not_cycles_ok _
  · rename_i e _ he
    rintro ⟨name, h⟩
    exact hlookup ⟨name, he.trans (congrArg _ (Except.error.inj h))⟩

theorem not_cycles_absentKeys : ∀ keys : List Json, ¬ Cycles (absentKeys b keys)
  | []                => not_cycles_ok []
  | .str path :: keys =>
      not_cycles_bind (not_cycles_absent b path) fun _ =>
        not_cycles_bind (not_cycles_absentKeys keys) fun _ => not_cycles_ok _
  | .null :: _ | .bool _ :: _ | .num _ :: _ | .arr _ :: _ | .obj _ :: _ => by
      rintro ⟨name, ⟨⟩⟩

theorem not_cycles_holdsComponent (target : Json) (component : String) :
    ¬ Cycles (holdsComponent b target component) := by
  unfold holdsComponent
  split <;> try split
  all_goals rintro ⟨name, ⟨⟩⟩

end LookUp

theorem not_cycles_pathOf (v : Json) : ¬ Cycles (pathOf v) := by
  unfold pathOf
  split <;> rintro ⟨name, ⟨⟩⟩

/-! ### What functions fail with -/

namespace Function

variable (f : Function) {vs : List Json} {e : PredicateError}

/-- The error is about the operands of `f`. -/
def Complains (e : PredicateError) : Prop :=
  ∃ reason, e = .invalidArguments f.name reason

theorem complains_of_invalid {α : Type} {reason : String} (h : f.invalid (α := α) reason = .error e) :
    f.Complains e :=
  ⟨reason, (Except.error.inj h).symm⟩

theorem complains_of_doubles (h : f.doubles vs = .error e) : f.Complains e := by
  induction vs with
  | nil => cases h
  | cons v vs ih =>
      rw [doubles] at h
      split at h
      · exact ih (Attempt.map_eq_error.1 h)
      · exact f.complains_of_invalid h

/-- A calculation fails where the operands are no numbers, or else as what is made of the numbers. -/
theorem complains_of_calculation {g : List Float → Except PredicateError Json}
    (hg : ∀ xs, g xs = .error e → f.Complains e) (h : f.doubles vs >>= g = .error e) :
    f.Complains e := by
  rcases Attempt.bind_eq_error.1 h with h | ⟨xs, -, h⟩
  · exact f.complains_of_doubles h
  · exact hg xs h

theorem complains_of_inOrder {accept : Ordering → Bool} (h : f.inOrder accept vs = .error e) :
    f.Complains e := by
  unfold inOrder at h
  split at h
  · exact f.complains_of_invalid h
  · cases h

theorem complains_of_division {divide : Float → Float → Float}
    (h : f.division divide vs = .error e) : f.Complains e := by
  refine f.complains_of_calculation (fun xs h => ?_) h
  split at h
  · split at h
    · exact f.complains_of_invalid h
    · cases h
  · exact f.complains_of_invalid h

theorem complains_of_extreme {pick : Float → Float → Float} (h : f.extreme pick vs = .error e) :
    f.Complains e := by
  refine f.complains_of_calculation (fun xs h => ?_) h
  split at h <;> cases h

/-- **A function fails for its operands only.** -/
theorem complains_of_apply (h : f.apply vs = .error e) : f.Complains e := by
  cases f with
  | equal | notEqual | strictEqual | notStrictEqual | not | truth | isIn | cat => cases h
  | less | lessOrEqual | greater | greaterOrEqual => exact complains_of_inOrder _ h
  | divide | remainder => exact complains_of_division _ h
  | min | max => exact complains_of_extreme _ h
  | add =>
      refine complains_of_calculation _ (fun xs h => ?_) h
      cases h
  | multiply =>
      refine complains_of_calculation _ (fun xs h => ?_) h
      split at h
      · exact complains_of_invalid _ h
      · cases h
  | subtract =>
      refine complains_of_calculation _ (fun xs h => ?_) h
      split at h
      · cases h
      · cases h
      · exact complains_of_invalid _ h

end Function

theorem not_cycles_call (name : String) (vs : List Json) : ¬ Cycles (call name vs) := by
  rintro ⟨condition, h⟩
  unfold call at h
  split at h
  · obtain ⟨reason, ⟨⟩⟩ := Function.complains_of_apply _ h
  · cases h

end EntityQuery.Predicate
