import EntityQuery.Proofs.Predicate.Course
import EntityQuery.World.Store
import Mathlib.Data.List.Perm.Subperm
import Mathlib.Logic.Relation

/-!
# Cycles of conditions

An evaluation ends, whatever its conditions refer to, and what it tells of cycles is true:

* `Predicate.Coherent.active_nodup`, `Predicate.Coherent.active_length_le`: the conditions being evaluated
  are conditions of the scene, each of them once.
* `Predicate.Coherent.cycle_met`: a condition that is told to refer to itself was met again by way of
  references, the first of which stands in its own body.
* `Predicate.Bindings.evaluation_ends`: all this of an evaluation; and no cycle is told where the conditions
  refer to one another by name and none of them to itself.
-/

namespace EntityQuery.Predicate

/-- While `name` was the condition entered last, a reference was met to `other`. -/
def Leads (b : Bindings) (moments : List Moment) (name other : String) : Prop :=
  ∃ rest, Meets b moments (name :: rest) other

/-- Every reference in a condition says the name it refers to, if anything. -/
def Literal (b : Bindings) : Prop :=
  ∀ name body, b.scene.conditions.get? name = some body →
    ∀ args, .obj [("condition_ref", args)] ∈ parts body →
      ∀ v, (operands args).head? = some v → ∃ other, v = .str other

/-- The condition `name` has a reference that says `other`. -/
def Refers (b : Bindings) (name other : String) : Prop :=
  ∃ body args, b.scene.conditions.get? name = some body ∧
    .obj [("condition_ref", args)] ∈ parts body ∧ (operands args).head? = some (.str other)

namespace Coherent

section

variable {b : Bindings} {predicate : Json} {r : Except PredicateError Json} {moments : List Moment}
  (h : Coherent b [] [] (parts predicate) r moments)
include h

/-- Every condition that is active was entered. -/
theorem entered {m : Moment} (hm : m ∈ moments) {name : String} {rest : List String}
    (hactive : m.active = name :: rest) : ∃ body, Entered b [] moments m name rest body := by
  rcases h.place m hm with ⟨hnone, -⟩ | ⟨other, others, body, hentered⟩
  · cases hactive.symm.trans hnone
  · cases hactive.symm.trans hentered.active_eq
    exact ⟨body, hentered⟩

theorem active_nodup {m : Moment} (hm : m ∈ moments) :
    m.active.Nodup ∧ m.active ⊆ b.scene.conditions.names := by
  obtain ⟨active, hactive⟩ : ∃ active, m.active = active := ⟨_, rfl⟩
  rw [hactive]
  induction active generalizing m with
  | nil => exact ⟨List.nodup_nil, List.nil_subset _⟩
  | cons name rest ih =>
      obtain ⟨body, hentered⟩ := h.entered hm hactive
      obtain ⟨args, hmet, -⟩ := hentered.met
      obtain ⟨hnodup, hsubset⟩ := ih hmet rfl
      have hname : name ∈ b.scene.conditions.names :=
        List.mem_map.2 ⟨_, Entries.mem_of_get? hentered.defined, rfl⟩
      exact ⟨List.nodup_cons.2 ⟨hentered.fresh, hnodup⟩, List.cons_subset.2 ⟨hname, hsubset⟩⟩

/-- References nest no deeper than there are conditions. -/
theorem active_length_le {m : Moment} (hm : m ∈ moments) :
    m.active.length ≤ b.scene.conditions.size := by
  obtain ⟨hnodup, hsubset⟩ := h.active_nodup hm
  have hle := (List.subperm_of_subset hnodup hsubset).length_le
  rwa [Table.names, List.length_map] at hle

/-- From a condition that is active, references lead to the one entered last. -/
theorem leads_to_last {m : Moment} (hm : m ∈ moments) {name last : String} {rest : List String}
    (hactive : m.active = last :: rest) (hname : name ∈ last :: rest) :
    Relation.ReflTransGen (Leads b moments) name last := by
  induction rest generalizing m last with
  | nil =>
      obtain rfl := List.mem_singleton.1 hname
      exact .refl
  | cons before rest ih =>
      rcases List.mem_cons.1 hname with rfl | hname
      · exact .refl
      · obtain ⟨body, hentered⟩ := h.entered hm hactive
        obtain ⟨args, hmet, -⟩ := hentered.met
        exact (ih hmet rfl hname).tail ⟨rest, hentered.met⟩

/-- **A condition that is told to refer to itself was met again from itself.** -/
theorem cycle_met {name : String} (hr : r = .error (.conditionCycle name)) :
    Relation.TransGen (Leads b moments) name name := by
  obtain ⟨active, hname, args, hmet, hvalue⟩ := h.cycle name hr
  cases active with
  | nil => cases hname
  | cons last rest => exact .tail' (h.leads_to_last hmet rfl hname) ⟨rest, args, hmet, hvalue⟩

/-- A reference that was met to a literal name stands in the condition. -/
theorem refers_of_leads (hliteral : Literal b) {name other : String}
    (hleads : Leads b moments name other) : Refers b name other := by
  obtain ⟨rest, args, hmet, hvalue⟩ := hleads
  obtain ⟨body, hentered⟩ := h.entered hmet rfl
  have hsaid := hliteral name body hentered.defined args hentered.part
  refine ⟨body, args, hentered.defined, hentered.part, ?_⟩
  cases hoperands : operands args with
  | nil =>
      rw [hoperands, evalFirst] at hvalue
      cases hvalue
  | cons v vs =>
      rw [hoperands] at hsaid hvalue
      obtain ⟨said, rfl⟩ := hsaid v rfl
      rw [evalFirst, eval_str] at hvalue
      cases hvalue
      rfl

end

end Coherent

/-- **An evaluation ends, and tells real cycles only.**  Whatever the predicate, the scene and its conditions
are, an evaluator whose calls may nest as deep as there are parts ends with the value or the error of the
predicate, and leaves active what was active before.  At every moment of an evaluation, the conditions being
evaluated are conditions of the scene, each of them once, so no more than there are.  A condition that is
told to refer to itself was met again by way of references from itself; so no cycle is told where the
conditions refer to one another by name and no chain of such references returns to where it began. -/
theorem Bindings.evaluation_ends (b : Bindings) (predicate : Json) :
    (∀ active v depth past, Evaluating.extent b active v ≤ depth →
      ∃ moments, (Evaluating.eval b depth v).run.run ⟨active, past⟩ =
        some (eval b active v, ⟨active, past ++ moments⟩)) ∧
    (∀ depth, Evaluating.extent b [] predicate ≤ depth →
      ∃ moments, (Evaluating.eval b depth predicate).run.run {} =
          some (b.evaluate predicate, { moments := moments }) ∧
        (∀ m ∈ moments, m.active.Nodup ∧ m.active ⊆ b.scene.conditions.names ∧
          m.active.length ≤ b.scene.conditions.size) ∧
        ∀ name, b.evaluate predicate = .error (.conditionCycle name) →
          Relation.TransGen (Leads b moments) name name) ∧
    (Literal b → (∀ name, ¬ Relation.TransGen (Refers b) name name) →
      ∀ name, b.evaluate predicate ≠ .error (.conditionCycle name)) := by
  refine ⟨fun active v depth past hdepth => ?_, fun depth hdepth => ?_, fun hliteral hacyclic name hname => ?_⟩
  · obtain ⟨moments, htakes, -⟩ := Evaluating.eval_plays b active v depth hdepth
    exact ⟨moments, htakes past⟩
  · obtain ⟨moments, htakes, hcoherent⟩ := Evaluating.eval_plays b [] predicate depth hdepth
    refine ⟨moments, htakes [], fun m hm => ?_, fun name hname => hcoherent.cycle_met hname⟩
    obtain ⟨hnodup, hsubset⟩ := hcoherent.active_nodup hm
    exact ⟨hnodup, hsubset, hcoherent.active_length_le hm⟩
  · obtain ⟨moments, -, hcoherent⟩ := Evaluating.eval_plays b [] predicate _ (Nat.le_refl _)
    have hrefers : ∀ one other, Leads b moments one other → Refers b one other := fun _ _ =>
      hcoherent.refers_of_leads hliteral
    exact hacyclic name (Relation.TransGen.mono hrefers name name (hcoherent.cycle_met hname))

/-- A condition that refers to another one twice. -/
def shownTwice : Bindings where
  scene := { world := (∅ : Store).world, conditions :=
    let twice := Json.obj [("and", .arr [reference "shown", reference "shown"])]
    ((∅ : Table Json).insert "shown" (.bool true)).insert "twice" twice }
  actor := "hero"

/-- What is referred to twice is not told to refer to itself. -/
theorem shownTwice_tells_no_cycle :
    Literal shownTwice ∧ (∀ name, ¬ Relation.TransGen (Refers shownTwice) name name) ∧
      ∀ name, shownTwice.evaluate (reference "twice") ≠ .error (.conditionCycle name) := by
  have hrefers : ∀ name body args, shownTwice.scene.conditions.get? name = some body →
      .obj [("condition_ref", args)] ∈ parts body → name = "twice" ∧ args = .str "shown" := by
    intro name body args hdefined hpart
    simp only [shownTwice, Table.get?_insert, Table.get?_empty] at hdefined
    split at hdefined
    · cases hdefined
      simpa [parts, partsOfAll, reference, *] using hpart
    · split at hdefined
      · cases hdefined
        simp [parts] at hpart
      · cases hdefined
  have hliteral : Literal shownTwice := by
    intro name body hdefined args hpart v hv
    obtain ⟨-, rfl⟩ := hrefers name body args hdefined hpart
    exact ⟨"shown", (Option.some.inj hv).symm⟩
  have hacyclic : ∀ name, ¬ Relation.TransGen (Refers shownTwice) name name := by
    have hedge : ∀ {name other}, Refers shownTwice name other → name = "twice" ∧ other = "shown" := by
      rintro name other ⟨body, args, hdefined, hpart, hsaid⟩
      obtain ⟨hname, rfl⟩ := hrefers name body args hdefined hpart
      exact ⟨hname, (Json.str.inj (Option.some.inj hsaid)).symm⟩
    intro name hcycle
    obtain ⟨other, hfirst, -⟩ := Relation.TransGen.head'_iff.1 hcycle
    obtain ⟨before, -, hlast⟩ := Relation.TransGen.tail'_iff.1 hcycle
    exact absurd ((hedge hfirst).1.symm.trans (hedge hlast).2) (by decide)
  exact ⟨hliteral, hacyclic, (shownTwice.evaluation_ends (reference "twice")).2.2 hliteral hacyclic⟩

end EntityQuery.Predicate
