import EntityQuery.Predicate.Evaluation

/-!
# An evaluator with a list of its own

`Predicate.eval` is given the names of the conditions being evaluated.  An evaluator keeps them: it adds a
name before it evaluates the body of a condition, and takes it away again however that ends.  What it can
do is limited only by how deep its calls may nest; out of depth, it comes to nothing.  It also writes down
each moment at which it is asked for the value of a predicate.
-/

namespace EntityQuery.Predicate

/-- A predicate whose value is asked for, and the conditions being evaluated then, the last one entered
first. -/
structure Moment where
  active : List String
  predicate : Json

/-- How far an evaluation is. -/
structure Course where
  active : List String := []
  moments : List Moment := []

/-- What goes on from a course, or comes to nothing. -/
abbrev Evaluating := ExceptT PredicateError (StateT Course Option)

namespace Evaluating

/-- Writes down that the value of `v` is asked for. -/
def ask (v : Json) : Evaluating Unit :=
  modify fun c => { c with moments := c.moments ++ [⟨c.active, v⟩] }

def activeNames : Evaluating (List String) :=
  return (← get).active

/-- How `x` ends. -/
def ending {α : Type} (x : Evaluating α) : Evaluating (Except PredicateError α) :=
  ExceptT.lift x.run

section Operators

variable (b : Bindings) (evaluate : Json → Evaluating Json)

def evalAll : List Json → Evaluating (List Json)
  | []      => return []
  | v :: vs => do
      let w ← evaluate v
      return w :: (← evalAll vs)

def evalFirst : List Json → Evaluating Json
  | []     => return .null
  | v :: _ => evaluate v

def evalVariable (vs : List Json) : Evaluating Json := do
  let path ← pathOf (← evalFirst evaluate vs)
  let found ← b.lookup path
  match vs with
  | _ :: default :: _ => if found = .null then evaluate default else return found
  | _                 => return found

def evalChoice : List Json → Evaluating Json
  | test :: result :: vs => do
      if truthy (← evaluate test) then evaluate result else evalChoice vs
  | [otherwise]          => evaluate otherwise
  | []                   => return .null

def evalUntil (stop : Bool) (last : Json) : List Json → Evaluating Json
  | []      => return last
  | v :: vs => do
      let w ← evaluate v
      if truthy w = stop then return w else evalUntil stop w vs

def evalHasComponent : List Json → Evaluating Json
  | [target, component] => do
      let target ← match target with
        | .str path => b.lookup path
        | v         => evaluate v
      match ← evaluate component with
      | .str component => holdsComponent b target component
      | _ => throw (.invalidArguments "has_component" "component must be a string")
  | _ => throw (.invalidArguments "has_component" "expects [path, component]")

/-- Evaluates the body of a condition, which is active until that has ended in a value or an error. -/
def enter (name : String) (body : Json) : Evaluating Json := do
  modify fun c => { c with active := name :: c.active }
  let result ← ending (evaluate body)
  modify fun c => { c with active := c.active.tail }
  result

def evalCondition (vs : List Json) : Evaluating Json := do
  match ← evalFirst evaluate vs with
  | .str name =>
      match b.scene.conditions.get? name with
      | none      => throw (.unknownCondition name)
      | some body =>
          if name ∈ (← activeNames) then throw (.conditionCycle name) else enter evaluate name body
  | _ => throw (.invalidArguments "condition_ref" "expects a condition id")

def evalOperation (operator : Operator) (vs : List Json) : Evaluating Json :=
  match operator with
  | .variable     => evalVariable b evaluate vs
  | .missing      => do return .arr (← absentKeys b (keysOf (← evalAll evaluate vs)))
  | .choose       => evalChoice evaluate vs
  | .and          => evalUntil evaluate false .null vs
  | .or           => evalUntil evaluate true .null vs
  | .hasComponent => evalHasComponent b evaluate vs
  | .conditionRef => evalCondition b evaluate vs
  | .call name    => do call name (← evalAll evaluate vs)

end Operators

/-- Evaluates a predicate by calls that nest no deeper than `depth`. -/
def eval (b : Bindings) : Nat → Json → Evaluating Json
  | 0,         _ => liftM (none : Option Json)
  | depth + 1, v => do
      ask v
      match v with
      | .arr vs             => return .arr (← evalAll (eval b depth) vs)
      | .obj [(name, args)] =>
          evalOperation b (eval b depth) (Operator.ofName name) (operands args)
      | v                   => return v

end Evaluating

end EntityQuery.Predicate
