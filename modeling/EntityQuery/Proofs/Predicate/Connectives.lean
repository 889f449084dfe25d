import EntityQuery.Proofs.Predicate.Evaluation
import EntityQuery.World.Store

/-!
# Laws of the connectives

A conjunction evaluates its operands one after the other until one is false, a disjunction until one is
true, and what either comes to is the value of the last operand that was evaluated, or the error in which
its evaluation ended.  So a law of connectives has to say more than that two predicates are equally true.
Two predicates are equivalent if they have the same value or fail with the same error, wherever they stand
(`Equivalent`):

* `evalUntil_flatten`: a connective among the operands of the same connective may be dissolved in them.
* `evalUntil_map_negation`: what stops one connective, negated, stops the other.
* `eval_choice_cons`: what no test of a choice leads to may be a choice itself.

`connective_laws` puts these together.  The connectives of no operands are left out, as either comes to
`null`, which is false.
-/

namespace EntityQuery.Predicate

/-- `p` and `q` have the same value or fail with the same error, under all bindings and whichever conditions
are being evaluated. -/
def Equivalent (p q : Json) : Prop :=
  ∀ (b : Bindings) (active : List String), eval b active p = eval b active q

theorem Equivalent.evaluate_eq {p q : Json} (h : Equivalent p q) (b : Bindings) :
    b.evaluate p = b.evaluate q :=
  h b []

/-! ### Operations -/

def conjunction (vs : List Json) : Json :=
  .obj [("and", .arr vs)]

def disjunction (vs : List Json) : Json :=
  .obj [("or", .arr vs)]

def negation (v : Json) : Json :=
  .obj [("!", .arr [v])]

/-- Tests, each with what it leads to, and at the end what no test leads to. -/
def choice (vs : List Json) : Json :=
  .obj [("if", .arr vs)]

section

variable (b : Bindings) (active : List String)

theorem eval_conjunction (vs : List Json) :
    eval b active (conjunction vs) = evalUntil b active false .null vs := by
  rw [conjunction, eval.eq_def]
  show evalOperation b active .and vs = evalUntil b active false .null vs
  rw [evalOperation.eq_def]

theorem eval_disjunction (vs : List Json) :
    eval b active (disjunction vs) = evalUntil b active true .null vs := by
  rw [disjunction, eval.eq_def]
  show evalOperation b active .or vs = evalUntil b active true .null vs
  rw [evalOperation.eq_def]

theorem eval_choice (vs : List Json) : eval b active (choice vs) = evalChoice b active vs := by
  rw [choice, eval.eq_def]
  show evalOperation b active .choose vs = evalChoice b active vs
  rw [evalOperation.eq_def]

/-- What a negation makes of the value of its operand. -/
def negated (v : Json) : Json :=
  .bool (¬ truthy v)

theorem truthy_negated (v : Json) : truthy (negated v) = !truthy v := by
  show decide (¬ truthy v) = !truthy v
  cases truthy v <;> rfl

theorem eval_negation (v : Json) :
    eval b active (negation v) = (eval b active v).map negated := by
  rw [negation, eval.eq_def]
  show evalOperation b active (.call "!") [v] = (eval b active v).map negated
  rw [evalOperation.eq_def]
  show evalAll b active [v] >>= call "!" = (eval b active v).map negated
  rw [evalAll, evalAll]
  cases eval b active v <;> rfl

/-! ### Until one is as true as -/

variable (stop : Bool)

theorem evalUntil_cons (last v : Json) (vs : List Json) :
    evalUntil b active stop last (v :: vs) = (do
      let w ← eval b active v
      if truthy w = stop then return w else evalUntil b active stop w vs) := by
  rw [evalUntil]

/-- Where there are operands, nothing else is the last value. -/
theorem evalUntil_of_ne_nil {vs : List Json} (h : vs ≠ []) (last last' : Json) :
    evalUntil b active stop last vs = evalUntil b active stop last' vs := by
  cases vs with
  | nil       => exact (h rfl).elim
  | cons v vs => rw [evalUntil_cons, evalUntil_cons]

/-- Those that come after the first operands are evaluated unless these stop. -/
theorem evalUntil_append {last : Json} {vs : List Json} (h : vs = [] → truthy last ≠ stop)
    (ws : List Json) :
    evalUntil b active stop last (vs ++ ws) = (do
      let w ← evalUntil b active stop last vs
      if truthy w = stop then return w else evalUntil b active stop w ws) := by
  induction vs generalizing last with
  | nil =>
      rw [List.nil_append, evalUntil]
      exact (if_neg (h rfl)).symm
  | cons v vs ih =>
      rw [List.cons_append, evalUntil_cons, evalUntil_cons]
      cases eval b active v with
      | error e => rfl
      | ok w    =>
          show (if truthy w = stop then .ok w else evalUntil b active stop w (vs ++ ws)) =
            (if truthy w = stop then .ok w else evalUntil b active stop w vs) >>= _
          by_cases hw : truthy w = stop
          · rw [if_pos hw, if_pos hw]
            exact (if_pos hw).symm
          · rw [if_neg hw, if_neg hw, ih fun _ => hw]

/-- What comes after the same operands may be replaced by what goes on alike. -/
theorem evalUntil_append_congr {ws ws' : List Json}
    (h : ∀ last, evalUntil b active stop last ws = evalUntil b active stop last ws') (vs : List Json)
    (last : Json) :
    evalUntil b active stop last (vs ++ ws) = evalUntil b active stop last (vs ++ ws') := by
  induction vs generalizing last with
  | nil          => exact h last
  | cons v vs ih =>
      rw [List.cons_append, List.cons_append, evalUntil_cons, evalUntil_cons]
      simp only [ih]

/-- **A connective among the operands of the same connective may be dissolved in them.** -/
theorem evalUntil_flatten {v : Json} {ys : List Json} (hys : ys ≠ [])
    (hv : eval b active v = evalUntil b active stop .null ys) (xs zs : List Json) (last : Json) :
    evalUntil b active stop last (xs ++ [v] ++ zs) = evalUntil b active stop last (xs ++ ys ++ zs) := by
  rw [List.append_assoc, List.append_assoc]
  refine evalUntil_append_congr b active stop (fun last => ?_) xs last
  rw [List.singleton_append, evalUntil_cons, hv, evalUntil_append b active stop (fun h => (hys h).elim),
    evalUntil_of_ne_nil b active stop hys .null last]

/-- **What stops one connective, negated, stops the other.** -/
theorem evalUntil_map_negation (last : Json) (ys : List Json) :
    evalUntil b active (!stop) (negated last) (ys.map negation) =
      (evalUntil b active stop last ys).map negated := by
  induction ys generalizing last with
  | nil =>
      rw [List.map_nil, evalUntil, evalUntil]
      rfl
  | cons y ys ih =>
      rw [List.map_cons, evalUntil_cons, evalUntil_cons, eval_negation]
      cases eval b active y with
      | error e => rfl
      | ok w    =>
          have hstops : truthy (negated w) = (!stop) ↔ truthy w = stop := by
            rw [truthy_negated, Bool.not_inj_iff]
          show (if truthy (negated w) = (!stop) then .ok (negated w)
              else evalUntil b active (!stop) (negated w) (ys.map negation)) =
            (if truthy w = stop then .ok w else evalUntil b active stop w ys).map negated
          by_cases hw : truthy w = stop
          · rw [if_pos (hstops.2 hw), if_pos hw]
            rfl
          · rw [if_neg fun h => hw (hstops.1 h), if_neg hw, ih]

/-- The other connective of the negated operands is the negation of a connective. -/
theorem map_evalUntil_negated {ys : List Json} (hys : ys ≠ []) :
    (evalUntil b active stop .null ys).map negated =
      evalUntil b active (!stop) .null (ys.map negation) := by
  have hmap : ys.map negation ≠ [] := fun h => hys (List.map_eq_nil_iff.1 h)
  rw [← evalUntil_map_negation, evalUntil_of_ne_nil b active (!stop) hmap (negated .null) .null]

/-! ### Choices -/

/-- What the first test does not lead to is a choice of the rest. -/
theorem eval_choice_cons (test result : Json) (rest : List Json) :
    eval b active (choice (test :: result :: rest)) =
      eval b active (choice [test, result, choice rest]) := by
  rw [eval_choice, eval_choice, evalChoice, evalChoice, evalChoice, eval_choice]

end

/-! ### The laws -/

/-- **The laws of the connectives hold of values and errors.**  A conjunction of one operand or more that is
an operand of a conjunction may be dissolved in it, and so may a disjunction in a disjunction.  The negation
of one is equivalent to the other one of the negations.  And a choice is equivalent to the choice of its first
test and of a choice of the rest, however many there are and whether they come in pairs or not. -/
theorem connective_laws (xs ys zs : List Json) (hys : ys ≠ []) :
    Equivalent (conjunction (xs ++ [conjunction ys] ++ zs)) (conjunction (xs ++ ys ++ zs)) ∧
    Equivalent (disjunction (xs ++ [disjunction ys] ++ zs)) (disjunction (xs ++ ys ++ zs)) ∧
    Equivalent (negation (conjunction ys)) (disjunction (ys.map negation)) ∧
    Equivalent (negation (disjunction ys)) (conjunction (ys.map negation)) ∧
    ∀ test result rest,
      Equivalent (choice ([test, result] ++ rest)) (choice [test, result, choice rest]) := by
  refine ⟨fun b active => ?_, fun b active => ?_, fun b active => ?_, fun b active => ?_,
    fun test result rest b active => eval_choice_cons b active test result rest⟩
  · rw [eval_conjunction, eval_conjunction]
    exact evalUntil_flatten b active false hys (eval_conjunction b active ys) xs zs .null
  · rw [eval_disjunction, eval_disjunction]
    exact evalUntil_flatten b active true hys (eval_disjunction b active ys) xs zs .null
  · rw [eval_negation, eval_conjunction, eval_disjunction]
    exact map_evalUntil_negated b active false hys
  · rw [eval_negation, eval_disjunction, eval_conjunction]
    exact map_evalUntil_negated b active true hys

/-- Nobody is called ghost here. -/
def unhaunted : Bindings where
  scene := { world := (∅ : Store).world }
  actor := "hero"

/-- A conjunction within another one stops both before anybody looks for the ghost, and so does a choice
that is made without it.  The negation of a disjunction fails for the ghost, and so does the conjunction of
the negations. -/
theorem unhaunted_looks_for_ghost_late :
    let ghost : Json := .obj [("var", .str "ghost")]
    [.str "", ghost] ≠ [] ∧
    unhaunted.evaluate (conjunction [.str "dusk", conjunction [.str "", ghost], ghost]) = .ok (.str "") ∧
    unhaunted.evaluate (conjunction [negation (.str ""), negation ghost]) =
      .error (.unknownVariable "ghost") ∧
    unhaunted.evaluate (choice [.str "", ghost, choice [.str "dawn"]]) = .ok (.str "dawn") := by
  intro ghost
  have hghost : [.str "", ghost] ≠ [] := List.cons_ne_nil _ _
  have hfails : eval unhaunted [] ghost = .error (.unknownVariable "ghost") :=
    (unhaunted.evaluate_variable "ghost").trans rfl
  have hflat : unhaunted.evaluate (conjunction [.str "dusk", .str "", ghost, ghost]) = .ok (.str "") := by
    rw [Bindings.evaluate, eval_conjunction, evalUntil_cons, eval_str]
    show evalUntil unhaunted [] false (.str "dusk") [.str "", ghost, ghost] = .ok (.str "")
    rw [evalUntil_cons, eval_str]
    rfl
  have hneither : unhaunted.evaluate (negation (disjunction [.str "", ghost])) =
      .error (.unknownVariable "ghost") := by
    rw [Bindings.evaluate, eval_negation, eval_disjunction, evalUntil_cons, eval_str]
    show (evalUntil unhaunted [] true (.str "") [ghost]).map negated = _
    rw [evalUntil_cons, hfails]
    rfl
  have hdawn : unhaunted.evaluate (choice [.str "", ghost, .str "dawn"]) = .ok (.str "dawn") := by
    rw [Bindings.evaluate, eval_choice, evalChoice, evalChoice, eval_str, eval_str]
    rfl
  obtain ⟨hand, -, -, hnor, hchoice⟩ := connective_laws [.str "dusk"] [.str "", ghost] [ghost] hghost
  exact ⟨hghost, (hand.evaluate_eq unhaunted).trans hflat,
    (hnor.evaluate_eq unhaunted).symm.trans hneither,
    ((hchoice (.str "") ghost [.str "dawn"]).evaluate_eq unhaunted).symm.trans hdawn⟩

end EntityQuery.Predicate
