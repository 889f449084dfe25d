import EntityQuery.Predicate.Evaluator
import EntityQuery.Proofs.Predicate.Evaluation

/-!
# What an evaluator does

While some conditions are active, an evaluator has a result, writes down some moments and leaves the same
conditions active (`Evaluating.Takes`).

* `Evaluating.enter_takes`: however the body of a condition ends, the same conditions are active as before
  it was entered.
-/

namespace EntityQuery.Predicate.Evaluating

variable {α β : Type}

/-- While those conditions are active, `x` has the result `r`, adds these moments and leaves the same
conditions active. -/
def Takes (x : Evaluating α) (active : List String) (r : Except PredicateError α)
    (moments : List Moment) : Prop :=
  ∀ past, x.run.run ⟨active, past⟩ = some (r, ⟨active, past ++ moments⟩)

section Takes

variable {active : List String}

theorem takes_of_forall {x : Evaluating α} {r : Except PredicateError α}
    (h : ∀ past, x.run.run ⟨active, past⟩ = some (r, ⟨active, past⟩)) : x.Takes active r [] := by
  intro past
  rw [List.append_nil]
  exact h past

theorem Takes.pure (a : α) : Takes (pure a) active (.ok a) [] :=
  takes_of_forall fun _ => rfl

theorem Takes.throw (e : PredicateError) : Takes (throw e : Evaluating α) active (.error e) [] :=
  takes_of_forall fun _ => rfl

theorem lift_takes (r : Except PredicateError α) : Takes (liftM r) active r [] :=
  takes_of_forall fun _ => by cases r <;> rfl

theorem ask_takes (v : Json) : Takes (ask v) active (.ok ()) [⟨active, v⟩] :=
  fun _ => rfl

theorem activeNames_takes : Takes activeNames active (.ok active) [] :=
  takes_of_forall fun _ => rfl

theorem run_bind (x : Evaluating α) (f : α → Evaluating β) (c : Course) :
    (x >>= f).run.run c = x.run.run c >>= fun p => (ExceptT.bindCont f p.1).run p.2 :=
  rfl

theorem Takes.bind_ok {x : Evaluating α} {f : α → Evaluating β} {a : α} {moments later : List Moment}
    {r : Except PredicateError β} (hx : x.Takes active (.ok a) moments)
    (hf : (f a).Takes active r later) : Takes (x >>= f) active r (moments ++ later) := by
  intro past
  rw [run_bind, hx past, ← List.append_assoc]
  exact hf (past ++ moments)

/-- What follows on an error is left out. -/
theorem Takes.bind_error {x : Evaluating α} {e : PredicateError} {moments : List Moment}
    (hx : x.Takes active (.error e) moments) (f : α → Evaluating β) :
    Takes (x >>= f) active (.error e) moments := by
  intro past
  rw [run_bind, hx past]
  rfl

theorem ending_takes {x : Evaluating α} {r : Except PredicateError α} {moments : List Moment}
    (h : x.Takes active r moments) : (ending x).Takes active (.ok r) moments := by
  intro past
  show (x.run.run ⟨active, past⟩ >>= _) = _
  rw [h past]
  rfl

/-- However the evaluation of a body ends, what was active before the condition was entered is active
again. -/
theorem enter_takes {evaluate : Json → Evaluating Json} {name : String} {body : Json}
    {moments : List Moment} {r : Except PredicateError Json}
    (h : (evaluate body).Takes (name :: active) r moments) :
    (enter evaluate name body).Takes active r moments := by
  intro past
  show ((ending (evaluate body)).run.run ⟨name :: active, past⟩ >>= _) = _
  rw [ending_takes h past]
  cases r <;> rfl

end Takes

end EntityQuery.Predicate.Evaluating
