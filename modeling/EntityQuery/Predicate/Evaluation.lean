import EntityQuery.Predicate.Binding
import EntityQuery.Predicate.Function

/-!
# Evaluation

A predicate is a value.  An object with one member is an operation, the name of the member its operator
and the value its operands, one operand if it is no array; an array is evaluated element by element, and
everything else stands for itself.

A condition is evaluated in place of a reference to it.  The names of the conditions being evaluated are
kept in `active`, and a reference to one of them is an error.  So each reference leaves fewer conditions
that a further one can enter (`pending_lt`), every other step goes to a part of the predicate, and
evaluation ends for all predicates and conditions, those that refer to themselves included.
-/

namespace EntityQuery.Predicate

/-- The operators that choose which operands to evaluate, or look beyond their values. -/
inductive Operator where
  | variable
  | missing
  | choose
  | and
  | or
  | hasComponent
  | conditionRef
  /-- Evaluates all operands and applies the function of that name, if there is one. -/
  | call (name : String)
deriving DecidableEq

def Operator.ofName (name : String) : Operator :=
  if name = "var" then .variable
  else if name = "missing" then .missing
  else if name = "if" ∨ name = "?:" then .choose
  else if name = "and" then .and
  else if name = "or" then .or
  else if name = "has_component" then .hasComponent
  else if name = "condition_ref" then .conditionRef
  else .call name

/-- The operands of an operation. -/
def operands : Json → List Json
  | .arr vs => vs
  | v       => [v]

theorem sizeOf_operands_lt (v : Json) : sizeOf (operands v) < sizeOf v + 3 := by
  unfold operands
  split <;> simp <;> omega

/-- The names of the conditions that a reference can still enter. -/
def pending (b : Bindings) (active : List String) : List String :=
  b.scene.conditions.names.filter (· ∉ active)

/-- Entering a condition leaves fewer to enter. -/
theorem pending_lt {b : Bindings} {active : List String} {name : String} {body : Json}
    (hname : b.scene.conditions.get? name = some body) (hactive : name ∉ active) :
    (pending b (name :: active)).length < (pending b active).length := by
  have hmem : name ∈ pending b active := by
    refine List.mem_filter.2 ⟨?_, by simpa using hactive⟩
    exact List.mem_map.2 ⟨_, Entries.mem_of_get? hname, rfl⟩
  have hsub : pending b (name :: active) = (pending b active).filter (· ≠ name) := by
    simp only [pending, List.filter_filter]
    refine List.filter_congr fun x _ => ?_
    simp [not_or]
  rw [hsub]
  exact List.length_filter_lt_length_iff_exists.2 ⟨name, hmem, by simp⟩

/-- The path that the operand of a variable says. -/
def pathOf : Json → Except PredicateError String
  | .str path => .ok path
  | .num n    => .ok (String.ofList n.text)
  | .null     => .ok ""
  | v         => .error (.invalidArguments "var" ("path must be a string, found " ++ v.text))

/-- Whether a path leads to nothing: to `null`, to an empty text, or from a root bound to nothing. -/
def absent (b : Bindings) (path : String) : Except PredicateError Bool :=
  match b.lookup path with
  | .ok v                      => .ok (v = .null ∨ v = .str "")
  | .error (.unknownVariable _) => .ok true
  | .error e                   => .error e

/-- Those of the keys that lead to nothing.  All must be texts. -/
def absentKeys (b : Bindings) : List Json → Except PredicateError (List Json)
  | []              => .ok []
  | .str path :: vs => do
      let here ← absent b path
      let rest ← absentKeys b vs
      return if here then .str path :: rest else rest
  | _ :: _          => .error (.invalidArguments "missing" "keys must be strings")

/-- The keys that `missing` is given: those in its first operand, if that is an array. -/
def keysOf : List Json → List Json
  | .arr vs :: _ => vs
  | vs           => vs

/-- Whether the entity that a value names has a component; nobody has none. -/
def holdsComponent (b : Bindings) (target : Json) (component : String) :
    Except PredicateError Json :=
  match target with
  | .str id =>
      match b.scene.world.has id component with
      | .ok holds    => .ok (.bool holds)
      | .error fault => .error (.unread fault)
  | .null   => .ok (.bool false)
  | v       => .error
      (.invalidArguments "has_component" ("target must be an entity id, found " ++ v.text))

/-- Applies the function of that name. -/
def call (name : String) (vs : List Json) : Except PredicateError Json :=
  match Function.ofName? name with
  | some f => f.apply vs
  | none   => .error (.unknownOperator name)

mutual

def eval (b : Bindings) (active : List String) (v : Json) : Except PredicateError Json :=
  match v with
  | .arr vs              => (evalAll b active vs).map .arr
  | .obj [(name, args)]  => evalOperation b active (Operator.ofName name) (operands args)
  | v                    => .ok v
termination_by ((pending b active).length, sizeOf v, 0)
decreasing_by
  · exact .right _ (.left _ _ (by simp))
  · have := sizeOf_operands_lt args
    exact .right _ (.left _ _ (by simp; omega))

def evalOperation (b : Bindings) (active : List String) (operator : Operator) (vs : List Json) :
    Except PredicateError Json :=
  match operator with
  | .variable     => evalVariable b active vs
  | .missing      => do return .arr (← absentKeys b (keysOf (← evalAll b active vs)))
  | .choose       => evalChoice b active vs
  | .and          => evalUntil b active false .null vs
  | .or           => evalUntil b active true .null vs
  | .hasComponent => evalHasComponent b active vs
  | .conditionRef => evalCondition b active vs
  | .call name    => do call name (← evalAll b active vs)
termination_by ((pending b active).length, sizeOf vs, 2)

/-- All of the values, in order. -/
def evalAll (b : Bindings) (active : List String) (vs : List Json) :
    Except PredicateError (List Json) :=
  match vs with
  | []      => .ok []
  | v :: vs => do
      let w ← eval b active v
      return w :: (← evalAll b active vs)
termination_by ((pending b active).length, sizeOf vs, 0)

/-- The value of the first operand, `null` if there is none. -/
def evalFirst (b : Bindings) (active : List String) (vs : List Json) :
    Except PredicateError Json :=
  match vs with
  | []     => .ok .null
  | v :: _ => eval b active v
termination_by ((pending b active).length, sizeOf vs, 0)

/-- What the path leads to that the first operand says, or the value of the second operand where that is
`null`. -/
def evalVariable (b : Bindings) (active : List String) (vs : List Json) :
    Except PredicateError Json := do
  let path ← pathOf (← evalFirst b active vs)
  let found ← b.lookup path
  match vs with
  | _ :: default :: _ => if found = .null then eval b active default else return found
  | _                 => return found
termination_by ((pending b active).length, sizeOf vs, 1)

/-- Operands in pairs, a test and what it leads to, and after them what no test leads to. -/
def evalChoice (b : Bindings) (active : List String) (vs : List Json) :
    Except PredicateError Json :=
  match vs with
  | test :: result :: vs => do
      if truthy (← eval b active test) then eval b active result else evalChoice b active vs
  | [otherwise]          => eval b active otherwise
  | []                   => .ok .null
termination_by ((pending b active).length, sizeOf vs, 0)

/-- The first value that is as true as `stop`, or else the last value; `last` if there is none. -/
def evalUntil (b : Bindings) (active : List String) (stop : Bool) (last : Json) (vs : List Json) :
    Except PredicateError Json :=
  match vs with
  | []      => .ok last
  | v :: vs => do
      let w ← eval b active v
      if truthy w = stop then return w else evalUntil b active stop w vs
termination_by ((pending b active).length, sizeOf vs, 0)

/-- Whether the entity that the first operand names has the component that the second one names.  A
text as first operand is a path. -/
def evalHasComponent (b : Bindings) (active : List String) (vs : List Json) :
    Except PredicateError Json :=
  match vs with
  | [target, component] => do
      let target ← match target with
        | .str path => b.lookup path
        | v         => eval b active v
      match ← eval b active component with
      | .str component => holdsComponent b target component
      | _ => .error (.invalidArguments "has_component" "component must be a string")
  | _ => .error (.invalidArguments "has_component" "expects [path, component]")
termination_by ((pending b active).length, sizeOf vs, 1)

/-- The value of the condition that the first operand names. -/
def evalCondition (b : Bindings) (active : List String) (vs : List Json) :
    Except PredicateError Json := do
  match ← evalFirst b active vs with
  | .str name =>
      match _hname : b.scene.conditions.get? name with
      | none      => .error (.unknownCondition name)
      | some body =>
          if _hactive : name ∈ active then .error (.conditionCycle name)
          else eval b (name :: active) body
  | _ => .error (.invalidArguments "condition_ref" "expects a condition id")
termination_by ((pending b active).length, sizeOf vs, 1)
decreasing_by
  · exact .right _ (.right _ (by decide))
  · exact .left _ _ (pending_lt _hname _hactive)

end

/-- The value of a predicate. -/
def Bindings.evaluate (b : Bindings) (predicate : Json) : Except PredicateError Json :=
  eval b [] predicate

end EntityQuery.Predicate
