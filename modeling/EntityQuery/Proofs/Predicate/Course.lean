import EntityQuery.Proofs.Predicate.Evaluator

/-!
# The course of an evaluation

The moments that an evaluator writes down are coherent (`Coherent`): a condition is active only while a part
of its body is asked for, it was entered while it was not active, by a reference that was met, and a cycle
is told only where a reference is met to a condition that is active.

* `Evaluating.eval_plays`: if its calls may nest as deep as the predicate, together with the conditions that
  can still be entered, has parts (`Evaluating.extent`), the evaluator ends with the value or the error of
  the predicate and the same conditions active as before, and its course is coherent.
-/

namespace EntityQuery.Predicate

/-! ### Parts -/

mutual

/-- The predicates that a predicate is made up of, itself included. -/
def parts : Json → List Json
  | .arr vs                => .arr vs :: partsOfAll vs
  | .obj [(name, .arr vs)] => .obj [(name, .arr vs)] :: partsOfAll vs
  | .obj [(name, v)]       => .obj [(name, v)] :: parts v
  | v                      => [v]

def partsOfAll : List Json → List Json
  | []      => []
  | v :: vs => parts v ++ partsOfAll vs

end

theorem self_mem_parts (v : Json) : v ∈ parts v := by
  unfold parts
  split <;> exact List.mem_cons_self

theorem parts_arr (vs : List Json) : parts (.arr vs) = .arr vs :: partsOfAll vs := by
  rw [parts]

theorem parts_obj (name : String) (args : Json) :
    parts (.obj [(name, args)]) = .obj [(name, args)] :: partsOfAll (operands args) := by
  cases args <;> simp [parts, operands, partsOfAll]

theorem parts_sublist {v : Json} {vs : List Json} (h : v ∈ vs) :
    (parts v).Sublist (partsOfAll vs) := by
  induction vs with
  | nil => cases h
  | cons w vs ih =>
      rw [partsOfAll]
      rcases List.mem_cons.1 h with rfl | h
      · exact List.sublist_append_left _ _
      · exact (ih h).trans (List.sublist_append_right _ _)

/-- The parts of the conditions that a reference can still enter. -/
def pendingParts (b : Bindings) (active : List String) : List Json :=
  (b.scene.conditions.entries.filter (·.1 ∉ active)).flatMap fun e => parts e.2

/-- Entering a condition leaves the parts of the others. -/
theorem pendingParts_cons_le {b : Bindings} {active : List String} {name : String} {body : Json}
    (hdefined : b.scene.conditions.get? name = some body) (hfresh : name ∉ active) :
    (parts body).length + (pendingParts b (name :: active)).length ≤ (pendingParts b active).length := by
  let entries := b.scene.conditions.entries.filter (·.1 ∉ active)
  let named : String × Json → Bool := fun e => e.1 = name
  have hothers : b.scene.conditions.entries.filter (·.1 ∉ name :: active) =
      entries.filter fun e => !named e := by
    rw [List.filter_filter]
    refine List.filter_congr fun e _ => ?_
    simp [named, not_or]
  have hentry : (name, body) ∈ entries.filter named := by
    refine List.mem_filter.2 ⟨List.mem_filter.2 ⟨Entries.mem_of_get? hdefined, ?_⟩, ?_⟩
    · simpa using hfresh
    · exact decide_eq_true rfl
  have hbody : (parts body).Sublist ((entries.filter named).flatMap fun e => parts e.2) :=
    List.sublist_flatten_of_mem (List.mem_map.2 ⟨_, hentry, rfl⟩)
  have hsplit := ((List.filter_append_perm named entries).flatMap_right fun e => parts e.2).length_eq
  rw [List.flatMap_append, List.length_append] at hsplit
  rw [pendingParts, hothers]
  exact Nat.le_trans (Nat.add_le_add_right hbody.length_le _) (Nat.le_of_eq hsplit)

/-! ### Coherent courses -/

section Coherent

variable {b : Bindings} {active : List String} {known moments moments' : List Moment} {m : Moment}
  {name : String} {rest : List String} {body : Json}

/-- Among the moments is one at which, while those conditions were active, a reference was met to that
name. -/
def Meets (b : Bindings) (moments : List Moment) (active : List String) (name : String) : Prop :=
  ∃ args, ⟨active, .obj [("condition_ref", args)]⟩ ∈ moments ∧
    evalFirst b active (operands args) = .ok (.str name)

theorem Meets.mono (h : Meets b moments active name) (hsubset : moments ⊆ moments') :
    Meets b moments' active name := by
  obtain ⟨args, hmem, hvalue⟩ := h
  exact ⟨args, hsubset hmem, hvalue⟩

/-- The moment belongs to the body of a condition `name` that was entered after those of `active`, by a
reference that was met, while it was not active. -/
structure Entered (b : Bindings) (active : List String) (moments : List Moment) (m : Moment)
    (name : String) (rest : List String) (body : Json) : Prop where
  active_eq : m.active = name :: rest
  suffix : active <:+ rest
  fresh : name ∉ rest
  defined : b.scene.conditions.get? name = some body
  part : m.predicate ∈ parts body
  met : Meets b moments rest name

theorem Entered.mono (h : Entered b active moments m name rest body) (hsubset : moments ⊆ moments') :
    Entered b active moments' m name rest body :=
  { h with met := h.met.mono hsubset }

/-- The moments are those of an attempt, made while those conditions were active and after the moments
`known`, that has the result `r` and asks for the values of predicates in `scope`. -/
structure Coherent {α : Type} (b : Bindings) (known : List Moment) (active : List String)
    (scope : List Json) (r : Except PredicateError α) (moments : List Moment) : Prop where
  place : ∀ m ∈ moments, m.active = active ∧ m.predicate ∈ scope ∨
    ∃ name rest body, Entered b active (known ++ moments) m name rest body
  cycle : ∀ name, r = .error (.conditionCycle name) →
    ∃ rest, name ∈ rest ∧ Meets b (known ++ moments) rest name

namespace Coherent

variable {α β : Type} {scope : List Json} {later : List Moment}

theorem nil {r : Except PredicateError α} (h : ¬ Cycles r) : Coherent b known active scope r [] where
  place := nofun
  cycle := fun name hr => (h ⟨name, hr⟩).elim

theorem one {v : Json} (h : v ∈ scope) : Coherent b known active scope (.ok ()) [⟨active, v⟩] where
  place := by
    intro m hm
    obtain rfl := List.mem_singleton.1 hm
    exact .inl ⟨rfl, h⟩
  cycle := nofun

/-- A cycle is told where a reference is met to a condition that is active. -/
theorem of_active (hactive : name ∈ active) (hmet : Meets b known active name) :
    Coherent b known active scope (.error (.conditionCycle name) : Except PredicateError α) [] where
  place := nofun
  cycle := by
    rintro other ⟨⟩
    exact ⟨active, hactive, hmet.mono (List.subset_append_left _ _)⟩

theorem weaken {r : Except PredicateError α} {known' : List Moment} {scope' : List Json}
    (h : Coherent b known active scope r moments) (hknown : known ⊆ known') (hscope : scope ⊆ scope') :
    Coherent b known' active scope' r moments := by
  have hsubset : known ++ moments ⊆ known' ++ moments :=
    List.append_subset.2 ⟨List.subset_append_of_subset_left _ hknown, List.subset_append_right _ _⟩
  constructor
  · intro m hm
    rcases h.place m hm with ⟨hactive, hmem⟩ | ⟨name, rest, body, hentered⟩
    · exact .inl ⟨hactive, hscope hmem⟩
    · exact .inr ⟨name, rest, body, hentered.mono hsubset⟩
  · intro name hr
    obtain ⟨rest, hmem, hmet⟩ := h.cycle name hr
    exact ⟨rest, hmem, hmet.mono hsubset⟩

theorem append {a : α} {r : Except PredicateError β} (h : Coherent b known active scope (.ok a) moments)
    (hlater : Coherent b (known ++ moments) active scope r later) :
    Coherent b known active scope r (moments ++ later) := by
  constructor
  · intro m hm
    rw [← List.append_assoc]
    rcases List.mem_append.1 hm with hm | hm
    · rcases h.place m hm with hown | ⟨name, rest, body, hentered⟩
      · exact .inl hown
      · exact .inr ⟨name, rest, body, hentered.mono (List.subset_append_left _ _)⟩
    · exact hlater.place m hm
  · intro name hr
    rw [← List.append_assoc]
    exact hlater.cycle name hr

theorem of_error {e : PredicateError}
    (h : Coherent b known active scope (.error e : Except PredicateError α) moments) :
    Coherent b known active scope (.error e : Except PredicateError β) moments where
  place := h.place
  cycle := fun name hr => h.cycle name (congrArg _ (Except.error.inj hr))

/-- The moments of a body are those of the reference by which it was entered. -/
theorem of_body {r : Except PredicateError α}
    (h : Coherent b [] (name :: active) (parts body) r moments)
    (hdefined : b.scene.conditions.get? name = some body) (hfresh : name ∉ active)
    (hmet : Meets b known active name) : Coherent b known active scope r moments := by
  have hsubset : moments ⊆ known ++ moments := List.subset_append_right known moments
  constructor
  · intro m hm
    rcases h.place m hm with ⟨hactive, hpart⟩ | ⟨other, rest, otherBody, hentered⟩
    · exact .inr ⟨name, active, body, {
        active_eq := hactive
        suffix := List.suffix_rfl
        fresh := hfresh
        defined := hdefined
        part := hpart
        met := hmet.mono (List.subset_append_left _ _) }⟩
    · exact .inr ⟨other, rest, otherBody, { hentered.mono hsubset with
        suffix := (List.suffix_cons name active).trans hentered.suffix }⟩
  · intro other hr
    obtain ⟨rest, hmem, hmet⟩ := h.cycle other hr
    exact ⟨rest, hmem, hmet.mono hsubset⟩

end Coherent

end Coherent

/-! ### Attempts and their courses -/

namespace Evaluating

variable {α β : Type}

/-- While those conditions are active, `x` has the result `r`, leaves the same conditions active, and its
course is coherent. -/
def Plays (b : Bindings) (known : List Moment) (active : List String) (scope : List Json)
    (x : Evaluating α) (r : Except PredicateError α) : Prop :=
  ∃ moments, x.Takes active r moments ∧ Coherent b known active scope r moments

section Plays

variable {b : Bindings} {known : List Moment} {active : List String} {scope : List Json}

theorem Plays.pure (a : α) : Plays b known active scope (pure a) (.ok a) :=
  ⟨[], .pure a, .nil (not_cycles_ok a)⟩

theorem Plays.throw {e : PredicateError} (h : ∀ name, e ≠ .conditionCycle name) :
    Plays b known active scope (throw e : Evaluating α) (.error e) :=
  ⟨[], .throw e, .nil fun ⟨name, hname⟩ => h name (Except.error.inj hname)⟩

theorem Plays.lift {r : Except PredicateError α} (h : ¬ Cycles r) :
    Plays b known active scope (liftM r) r :=
  ⟨[], lift_takes r, .nil h⟩

theorem Plays.weaken {x : Evaluating α} {r : Except PredicateError α} {known' : List Moment}
    {scope' : List Json} (h : Plays b known active scope x r) (hknown : known ⊆ known')
    (hscope : scope ⊆ scope') : Plays b known' active scope' x r := by
  obtain ⟨moments, htakes, hcoherent⟩ := h
  exact ⟨moments, htakes, hcoherent.weaken hknown hscope⟩

theorem Plays.bind {x : Evaluating α} {f : α → Evaluating β} {r : Except PredicateError α}
    {g : α → Except PredicateError β} (hx : Plays b known active scope x r)
    (hf : ∀ a, r = .ok a → Plays b known active scope (f a) (g a)) :
    Plays b known active scope (x >>= f) (r >>= g) := by
  obtain ⟨moments, htakes, hcoherent⟩ := hx
  cases r with
  | error e => exact ⟨moments, htakes.bind_error f, hcoherent.of_error⟩
  | ok a    =>
      obtain ⟨later, hlater, hcoherent'⟩ := hf a rfl
      exact ⟨moments ++ later, htakes.bind_ok hlater,
        hcoherent.append (hcoherent'.weaken (List.subset_append_left _ _) (List.Subset.refl _))⟩

theorem Plays.map {x : Evaluating α} {r : Except PredicateError α} (hx : Plays b known active scope x r)
    (f : α → β) : Plays b known active scope (x >>= fun a => Pure.pure (f a)) (r.map f) := by
  have h := hx.bind fun a _ => .pure (f a)
  cases r <;> exact h

/-- What is done at a moment. -/
theorem Plays.at_moment {v : Json} {f : Unit → Evaluating α} {r : Except PredicateError α}
    (hv : v ∈ scope) (hf : Plays b (known ++ [⟨active, v⟩]) active scope (f ()) r) :
    Plays b known active scope (ask v >>= f) r := by
  obtain ⟨later, hlater, hcoherent⟩ := hf
  exact ⟨[⟨active, v⟩] ++ later, (ask_takes v).bind_ok hlater, (Coherent.one hv).append hcoherent⟩

/-! ### Operators -/

section Operators

variable {evaluate : Json → Evaluating Json} {vs : List Json}
  (heval : ∀ v ∈ vs, Plays b known active scope (evaluate v) (Predicate.eval b active v))
include heval

theorem evalAll_plays :
    Plays b known active scope (evalAll evaluate vs) (Predicate.evalAll b active vs) := by
  induction vs with
  | nil =>
      rw [Predicate.evalAll]
      exact .pure _
  | cons v vs ih =>
      obtain ⟨hv, hvs⟩ := List.forall_mem_cons.1 heval
      rw [Predicate.evalAll]
      exact hv.bind fun _ _ => (ih hvs).bind fun _ _ => .pure _

theorem evalFirst_plays :
    Plays b known active scope (evalFirst evaluate vs) (Predicate.evalFirst b active vs) := by
  cases vs with
  | nil =>
      rw [Predicate.evalFirst]
      exact .pure _
  | cons v vs =>
      rw [Predicate.evalFirst]
      exact heval v List.mem_cons_self

theorem evalUntil_plays (stop : Bool) (last : Json) :
    Plays b known active scope (evalUntil evaluate stop last vs)
      (Predicate.evalUntil b active stop last vs) := by
  induction vs generalizing last with
  | nil =>
      rw [Predicate.evalUntil]
      exact .pure _
  | cons v vs ih =>
      obtain ⟨hv, hvs⟩ := List.forall_mem_cons.1 heval
      rw [Predicate.evalUntil]
      refine hv.bind fun value _ => ?_
      split
      · exact .pure _
      · exact ih hvs value

omit heval in
theorem evalChoice_plays : ∀ {vs : List Json},
    (∀ v ∈ vs, Plays b known active scope (evaluate v) (Predicate.eval b active v)) →
    Plays b known active scope (evalChoice evaluate vs) (Predicate.evalChoice b active vs)
  | [], _ => by
      rw [Predicate.evalChoice]
      exact .pure _
  | [otherwise], heval => by
      rw [Predicate.evalChoice]
      exact heval otherwise List.mem_cons_self
  | test :: result :: vs, heval => by
      obtain ⟨htest, hrest⟩ := List.forall_mem_cons.1 heval
      obtain ⟨hresult, hvs⟩ := List.forall_mem_cons.1 hrest
      rw [Predicate.evalChoice]
      refine htest.bind fun verdict _ => ?_
      split
      · exact hresult
      · exact evalChoice_plays hvs

theorem evalVariable_plays :
    Plays b known active scope (evalVariable b evaluate vs) (Predicate.evalVariable b active vs) := by
  rw [Predicate.evalVariable]
  refine (evalFirst_plays heval).bind fun first _ => ?_
  refine (Plays.lift (not_cycles_pathOf first)).bind fun path _ => ?_
  refine (Plays.lift (not_cycles_lookup b path)).bind fun found _ => ?_
  rcases vs with _ | ⟨first, _ | ⟨default, vs⟩⟩
  · exact .pure found
  · exact .pure found
  · show Plays b known active scope (if found = .null then evaluate default else pure found)
      (if found = .null then Predicate.eval b active default else .ok found)
    split
    · exact heval default (List.mem_cons_of_mem first List.mem_cons_self)
    · exact .pure found

omit heval in
/-- Whether an entity that was found has a component. -/
theorem holdsComponent_plays (found : Json) {component : Json}
    (h : Plays b known active scope (evaluate component) (Predicate.eval b active component)) :
    Plays b known active scope
      (do match ← evaluate component with
        | .str component => holdsComponent b found component
        | _ => throw (.invalidArguments "has_component" "component must be a string"))
      (do match ← Predicate.eval b active component with
        | .str component => holdsComponent b found component
        | _ => .error (.invalidArguments "has_component" "component must be a string")) := by
  refine h.bind fun value _ => ?_
  cases value
  case str => exact .lift (not_cycles_holdsComponent b found _)
  all_goals exact .throw fun _ => nofun

theorem evalHasComponent_plays :
    Plays b known active scope (evalHasComponent b evaluate vs)
      (Predicate.evalHasComponent b active vs) := by
  rw [Predicate.evalHasComponent.eq_def]
  rcases vs with _ | ⟨target, _ | ⟨component, _ | _⟩⟩
  case cons.cons.nil =>
    obtain ⟨htarget, hcomponents⟩ := List.forall_mem_cons.1 heval
    have hcomponent := hcomponents component List.mem_cons_self
    cases target
    case str path =>
      exact (Plays.lift (not_cycles_lookup b path)).bind fun found _ =>
        holdsComponent_plays found hcomponent
    -- Only a text is a path.
    all_goals exact htarget.bind fun found _ => holdsComponent_plays found hcomponent
  all_goals exact .throw fun _ => nofun

omit heval in
/-- A condition is entered, or a cycle is told. -/
theorem enter_plays {name : String} {body : Json} (hdefined : b.scene.conditions.get? name = some body)
    (hmet : Meets b known active name)
    (hbody : name ∉ active → Plays b [] (name :: active) (parts body) (evaluate body)
      (Predicate.eval b (name :: active) body)) :
    Plays b known active scope
      (do if name ∈ (← activeNames) then throw (.conditionCycle name) else enter evaluate name body)
      (Predicate.enter b active name body) := by
  unfold Predicate.enter
  by_cases hactive : name ∈ active
  · rw [if_pos hactive]
    refine ⟨[] ++ [], activeNames_takes.bind_ok ?_, .of_active hactive hmet⟩
    rw [if_pos hactive]
    exact .throw _
  · obtain ⟨moments, htakes, hcoherent⟩ := hbody hactive
    rw [if_neg hactive]
    refine ⟨[] ++ moments, activeNames_takes.bind_ok ?_, hcoherent.of_body hdefined hactive hmet⟩
    rw [if_neg hactive]
    exact enter_takes htakes

theorem evalCondition_plays
    (hmet : ∀ name, Predicate.evalFirst b active vs = .ok (.str name) → Meets b known active name)
    (hbody : ∀ name body, b.scene.conditions.get? name = some body → name ∉ active →
      Plays b [] (name :: active) (parts body) (evaluate body)
        (Predicate.eval b (name :: active) body)) :
    Plays b known active scope (evalCondition b evaluate vs) (Predicate.evalCondition b active vs) := by
  rw [Predicate.evalCondition_eq]
  refine (evalFirst_plays heval).bind fun first hfirst => ?_
  cases first
  case str name =>
    cases hdefined : b.scene.conditions.get? name with
    | none      =>
        simp only [hdefined]
        exact .throw fun _ => nofun
    | some body =>
        simp only [hdefined]
        exact enter_plays hdefined (hmet name hfirst) (hbody name body hdefined)
  all_goals exact .throw fun _ => nofun

theorem evalOperation_plays (operator : Operator)
    (hcondition : operator = .conditionRef →
      Plays b known active scope (evalCondition b evaluate vs) (Predicate.evalCondition b active vs)) :
    Plays b known active scope (evalOperation b evaluate operator vs)
      (Predicate.evalOperation b active operator vs) := by
  rw [Predicate.evalOperation.eq_def]
  match operator with
  | .variable     => exact evalVariable_plays heval
  | .missing      =>
      exact (evalAll_plays heval).bind fun keys _ =>
        (Plays.lift (not_cycles_absentKeys b (keysOf keys))).bind fun _ _ => .pure _
  | .choose       => exact evalChoice_plays heval
  | .and          => exact evalUntil_plays heval false .null
  | .or           => exact evalUntil_plays heval true .null
  | .hasComponent => exact evalHasComponent_plays heval
  | .conditionRef => exact hcondition rfl
  | .call name    =>
      exact (evalAll_plays heval).bind fun values _ => .lift (not_cycles_call name values)

end Operators

/-! ### Predicates -/

/-- How deep the calls of an evaluation can nest at most: it goes to a part of the predicate, or enters a
condition that it has not entered. -/
def extent (b : Bindings) (active : List String) (v : Json) : Nat :=
  (parts v).length + (pendingParts b active).length

/-- **An evaluator that can nest its calls deep enough ends with the value of the predicate, or its
error.** -/
theorem eval_plays (b : Bindings) (active : List String) (v : Json) :
    ∀ depth, extent b active v ≤ depth →
      Plays b [] active (parts v) (eval b depth v) (Predicate.eval b active v) := by
  induction active, v using eval_induction b with
  | h active v hpart hbody =>
      rintro (_ | depth) hdepth
      · have hself := List.length_pos_of_mem (self_mem_parts v)
        unfold extent at hdepth
        omega
      -- What is evaluated at this moment is a part of `v`, or the body of a further condition.
      have hparts : ∀ vs, parts v = v :: partsOfAll vs → (∀ part ∈ vs, sizeOf part < sizeOf v) →
          ∀ part ∈ vs, Plays b ([] ++ [⟨active, v⟩]) active (parts v) (eval b depth part)
            (Predicate.eval b active part) := by
        intro vs hvs hsize part hmem
        have hsublist := parts_sublist hmem
        have hlength := hsublist.length_le
        have hextent : extent b active part ≤ depth := by
          unfold extent at hdepth ⊢
          rw [hvs, List.length_cons] at hdepth
          omega
        refine (hpart part (hsize part hmem) depth hextent).weaken (List.nil_subset _) ?_
        rw [hvs]
        exact List.subset_cons_of_subset v hsublist.subset
      have hbodies : ∀ name body, b.scene.conditions.get? name = some body → name ∉ active →
          Plays b [] (name :: active) (parts body) (eval b depth body)
            (Predicate.eval b (name :: active) body) := by
        intro name body hdefined hfresh
        refine hbody name body hdefined hfresh depth ?_
        have hself := List.length_pos_of_mem (self_mem_parts v)
        have hpending := pendingParts_cons_le hdefined hfresh
        unfold extent at hdepth ⊢
        omega
      rw [Predicate.eval.eq_def]
      refine Plays.at_moment (self_mem_parts v) ?_
      rcases v with _ | _ | _ | _ | vs | ms
      case arr =>
        have hsize : ∀ part ∈ vs, sizeOf part < sizeOf (Json.arr vs) := by
          intro part hmem
          have := List.sizeOf_lt_of_mem hmem
          simp only [Json.arr.sizeOf_spec]
          omega
        exact (evalAll_plays (hparts vs (parts_arr vs) hsize)).map Json.arr
      case obj =>
        rcases ms with _ | ⟨⟨name, args⟩, _ | _⟩
        case cons.nil =>
          have hoperands := hparts (operands args) (parts_obj name args) fun _ => sizeOf_lt_of_mem_operands
          refine evalOperation_plays hoperands (Operator.ofName name) fun hname => ?_
          obtain rfl := Operator.ofName_eq_conditionRef hname
          exact evalCondition_plays hoperands (fun _ hvalue => ⟨args, List.mem_singleton_self _, hvalue⟩)
            hbodies
        all_goals exact .pure _
      all_goals exact .pure _

end Plays

end Evaluating

end EntityQuery.Predicate
