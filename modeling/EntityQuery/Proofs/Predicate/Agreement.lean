import EntityQuery.Proofs.Predicate.Evaluation

/-!
# Two evaluations compared

How a predicate goes under some bindings may be compared with how it goes under others.  An agreement is a
relation between attempts that is kept where attempts follow one another (`Predicate.Agreement`).

* `Agreement.Between.evalOperation`: if the operands agree, and what the two bindings look up, so does what
  an operation makes of them.
* `Agreement.Between.eval_of_related`: so the values of every predicate agree, also while different
  conditions are being evaluated, if to enter a condition agrees.
* `Agreement.Between.eval`: that is so while the same conditions are being evaluated.
-/

namespace EntityQuery

/-- The error is a fault of some world. -/
def PredicateError.IsUnread : PredicateError → Prop
  | unread _ => True
  | _        => False

namespace Predicate

/-- A relation between attempts that is kept where attempts follow one another. -/
structure Agreement where
  Holds : ∀ {α : Type}, Except PredicateError α → Except PredicateError α → Prop
  pure : ∀ {α : Type} (a : α), Holds (.ok a) (.ok a)
  /-- A failure that is no fault of a world agrees with itself. -/
  failure : ∀ {α : Type} {e : PredicateError}, ¬ e.IsUnread →
    Holds (.error e : Except PredicateError α) (.error e)
  bind : ∀ {α β : Type} {x y : Except PredicateError α} {f g : α → Except PredicateError β},
    Holds x y → (∀ a, Holds (f a) (g a)) → Holds (x >>= f) (y >>= g)

namespace Agreement

variable (R : Agreement)

theorem map {α β : Type} {x y : Except PredicateError α} (h : R.Holds x y) (f : α → β) :
    R.Holds (x.map f) (y.map f) := by
  have hbind := R.bind h fun a => R.pure (f a)
  cases x <;> cases y <;> exact hbind

theorem pathOf (v : Json) : R.Holds (pathOf v) (pathOf v) := by
  cases v with
  | str _ | num _ | null   => exact R.pure _
  | bool _ | arr _ | obj _ => exact R.failure id

theorem call (name : String) (vs : List Json) : R.Holds (call name vs) (call name vs) := by
  unfold Predicate.call
  cases Function.ofName? name with
  | none   => exact R.failure id
  | some f =>
      cases hvalue : f.apply vs with
      | ok v    => simp only [hvalue]; exact R.pure v
      | error e =>
          obtain ⟨reason, rfl⟩ := f.complains_of_apply hvalue
          simp only [hvalue]
          exact R.failure id

/-- What the one bindings look up agrees with what the others do. -/
structure Between (b b' : Bindings) : Prop where
  conditions : b'.scene.conditions = b.scene.conditions
  lookup : ∀ path, R.Holds (b.lookup path) (b'.lookup path)
  absent : ∀ path, R.Holds (Predicate.absent b path) (Predicate.absent b' path)
  holdsComponent : ∀ target component,
    R.Holds (Predicate.holdsComponent b target component) (Predicate.holdsComponent b' target component)

namespace Between

variable {R} {b b' : Bindings}

theorem absentKeys (h : R.Between b b') : ∀ keys : List Json,
    R.Holds (Predicate.absentKeys b keys) (Predicate.absentKeys b' keys)
  | []                => R.pure _
  | .str path :: keys => R.bind (h.absent path) fun _ => R.bind (h.absentKeys keys) fun _ => R.pure _
  | .null :: _ | .bool _ :: _ | .num _ :: _ | .arr _ :: _ | .obj _ :: _ => R.failure id

/-! ### Operators -/

section Operators

variable {active active' : List String} {vs : List Json}
  (heval : ∀ v ∈ vs, R.Holds (Predicate.eval b active v) (Predicate.eval b' active' v))
include heval

theorem evalAll : R.Holds (evalAll b active vs) (evalAll b' active' vs) := by
  induction vs with
  | nil =>
      rw [Predicate.evalAll, Predicate.evalAll]
      exact R.pure _
  | cons v vs ih =>
      obtain ⟨hv, hvs⟩ := List.forall_mem_cons.1 heval
      rw [Predicate.evalAll, Predicate.evalAll]
      exact R.bind hv fun _ => R.bind (ih hvs) fun _ => R.pure _

theorem evalFirst : R.Holds (evalFirst b active vs) (evalFirst b' active' vs) := by
  cases vs with
  | nil =>
      rw [Predicate.evalFirst, Predicate.evalFirst]
      exact R.pure _
  | cons v vs =>
      rw [Predicate.evalFirst, Predicate.evalFirst]
      exact heval v List.mem_cons_self

theorem evalUntil (stop : Bool) (last : Json) :
    R.Holds (evalUntil b active stop last vs) (evalUntil b' active' stop last vs) := by
  induction vs generalizing last with
  | nil =>
      rw [Predicate.evalUntil, Predicate.evalUntil]
      exact R.pure _
  | cons v vs ih =>
      obtain ⟨hv, hvs⟩ := List.forall_mem_cons.1 heval
      rw [Predicate.evalUntil, Predicate.evalUntil]
      refine R.bind hv fun value => ?_
      split
      · exact R.pure _
      · exact ih hvs value

omit heval in
theorem evalChoice : ∀ {vs : List Json},
    (∀ v ∈ vs, R.Holds (Predicate.eval b active v) (Predicate.eval b' active' v)) →
    R.Holds (Predicate.evalChoice b active vs) (Predicate.evalChoice b' active' vs)
  | [], _ => by
      rw [Predicate.evalChoice, Predicate.evalChoice]
      exact R.pure _
  | [otherwise], heval => by
      rw [Predicate.evalChoice, Predicate.evalChoice]
      exact heval otherwise List.mem_cons_self
  | test :: result :: vs, heval => by
      obtain ⟨htest, hrest⟩ := List.forall_mem_cons.1 heval
      obtain ⟨hresult, hvs⟩ := List.forall_mem_cons.1 hrest
      rw [Predicate.evalChoice, Predicate.evalChoice]
      refine R.bind htest fun verdict => ?_
      split
      · exact hresult
      · exact evalChoice hvs

theorem evalVariable (h : R.Between b b') :
    R.Holds (evalVariable b active vs) (evalVariable b' active' vs) := by
  rw [Predicate.evalVariable, Predicate.evalVariable]
  refine R.bind (evalFirst heval) fun first => R.bind (R.pathOf first) fun path => ?_
  refine R.bind (h.lookup path) fun found => ?_
  split
  · split
    · exact heval _ (List.mem_cons_of_mem _ List.mem_cons_self)
    · exact R.pure _
  · exact R.pure _

theorem evalHasComponent (h : R.Between b b') :
    R.Holds (evalHasComponent b active vs) (evalHasComponent b' active' vs) := by
  rw [Predicate.evalHasComponent.eq_def, Predicate.evalHasComponent.eq_def]
  split
  · rename_i target component
    obtain ⟨htarget, hcomponents⟩ := List.forall_mem_cons.1 heval
    have hcomponent := hcomponents component List.mem_cons_self
    cases target
    case str path =>
      refine R.bind (h.lookup path) fun found => R.bind hcomponent fun name => ?_
      split
      · exact h.holdsComponent found _
      · exact R.failure id
    -- Only a text is a path.
    all_goals
      refine R.bind htarget fun found => R.bind hcomponent fun name => ?_
      split
      · exact h.holdsComponent found _
      · exact R.failure id
  · exact R.failure id

theorem evalOperation (h : R.Between b b') (operator : Operator)
    (hcondition : R.Holds (evalCondition b active vs) (evalCondition b' active' vs)) :
    R.Holds (evalOperation b active operator vs) (evalOperation b' active' operator vs) := by
  rw [Predicate.evalOperation.eq_def, Predicate.evalOperation.eq_def]
  match operator with
  | .variable     => exact evalVariable heval h
  | .missing      =>
      exact R.bind (evalAll heval) fun keys => R.bind (h.absentKeys (keysOf keys)) fun _ => R.pure _
  | .choose       => exact evalChoice heval
  | .and          => exact evalUntil heval false .null
  | .or           => exact evalUntil heval true .null
  | .hasComponent => exact evalHasComponent heval h
  | .conditionRef => exact hcondition
  | .call name    => exact R.bind (evalAll heval) (R.call name)

end Operators

/-! ### Predicates -/

variable (h : R.Between b b')
include h

/-- A reference agrees, if what it can enter does. -/
theorem evalCondition {active active' : List String} {vs : List Json}
    (heval : ∀ v ∈ vs, R.Holds (Predicate.eval b active v) (Predicate.eval b' active' v))
    (henter : ∀ name body, b.scene.conditions.get? name = some body →
      R.Holds (enter b active name body) (enter b' active' name body)) :
    R.Holds (evalCondition b active vs) (evalCondition b' active' vs) := by
  rw [evalCondition_eq, evalCondition_eq]
  refine R.bind (evalFirst heval) fun first => ?_
  split
  · rename_i name
    rw [h.conditions]
    split
    · exact R.failure id
    · rename_i body hname
      exact henter name body hname
  · exact R.failure id

/-- **The values of a predicate agree** under two such bindings while conditions are evaluated that are
related, if entering a condition agrees under related lists wherever its body does. -/
theorem eval_of_related {S : List String → List String → Prop}
    (henter : ∀ active active' name body, S active active' →
      b.scene.conditions.get? name = some body →
      (name ∉ active' → S (name :: active) (name :: active') →
        R.Holds (Predicate.eval b (name :: active) body)
          (Predicate.eval b' (name :: active') body)) →
      R.Holds (enter b active name body) (enter b' active' name body))
    {active active' : List String} (hrel : S active active') (v : Json) :
    R.Holds (Predicate.eval b active v) (Predicate.eval b' active' v) := by
  induction active', v using eval_induction b generalizing active with
  | h active' v hpart hbody =>
      rw [Predicate.eval.eq_def, Predicate.eval.eq_def]
      split
      · rename_i vs
        have hparts : ∀ part ∈ vs,
            R.Holds (Predicate.eval b active part) (Predicate.eval b' active' part) := by
          intro part hmem
          have := List.sizeOf_lt_of_mem hmem
          refine hpart part ?_ hrel
          simp only [Json.arr.sizeOf_spec]
          omega
        exact R.map (evalAll hparts) Json.arr
      · rename_i name args
        have hparts : ∀ part ∈ operands args,
            R.Holds (Predicate.eval b active part) (Predicate.eval b' active' part) :=
          fun part hmem => hpart part (sizeOf_lt_of_mem_operands hmem) hrel
        refine evalOperation hparts h _ (h.evalCondition hparts fun name body hname => ?_)
        exact henter active active' name body hrel hname fun hactive => hbody name body hname hactive
      · exact R.pure _

/-- While the same conditions are evaluated, the values agree. -/
theorem eval (active : List String) (v : Json) :
    R.Holds (eval b active v) (eval b' active v) := by
  refine h.eval_of_related (S := Eq) (fun active active' name body heq _ hbody => ?_) rfl v
  subst heq
  unfold enter
  split
  · exact R.failure id
  · rename_i hactive
    exact hbody hactive rfl

theorem evaluate (predicate : Json) : R.Holds (b.evaluate predicate) (b'.evaluate predicate) :=
  h.eval [] predicate

end Between

end Agreement

end Predicate

end EntityQuery
