import EntityQuery.Proofs.Resolution.Faithful
import EntityQuery.World.Store
import Mathlib.Algebra.Order.BigOperators.Group.List
import Mathlib.Algebra.Order.Group.Nat

/-!
# Descriptors flattened

A step to a view makes a descriptor of the outfit of each entity, and flattening a descriptor lists what
its view shows of the outfit.  The array form of the step lists that at once:

* `Asking.treat_view_array`: the array form finds in a set what is found by flattening the descriptors, and
  fails as making them does.
* `Engine.flattened_view_eq_array_form`: so both ways have one answer, if the bound on the depth admits the
  longer one.  Between the two steps the bound on the size has no say, as there are never more descriptors
  than candidates they are made of.
-/

namespace EntityQuery

open Attire (ScoreTable View)

namespace Asking

variable (a : Asking) (view : View)

/-- Flattening never fails at a candidate. -/
theorem mapM_found_flatten (cs : List Candidate) :
    cs.mapM (a.found .flatten) = .ok (cs.map a.foundByFlattening) :=
  List.mapM_pure

theorem treat_flatten (s : CandidateSet) :
    a.treat .flatten s = .ok (.ofList (s.toList.flatMap a.foundByFlattening)) := by
  rw [treat, a.mapM_found_flatten, List.flatMap_def]
  rfl

/-- What the array form finds in a candidate is what its descriptor, flattened, finds. -/
theorem foundInView_array (c : Candidate) :
    a.foundInView view true c =
      (a.foundInView view false c).map fun found => found.flatMap a.foundByFlattening := by
  cases c with
  | value v      => rfl
  | descriptor d => rfl
  | entity id    =>
      rw [foundInView, foundInView]
      cases a.scene.world.outfit id with
      | error fault => rfl
      | ok outfit   => exact congrArg Except.ok (List.append_nil _).symm

/-- **The array form of a step to a view finds what its descriptors, flattened, find.** -/
theorem treat_view_array (s : CandidateSet) :
    a.treat (.view view true) s = a.treat (.view view false) s >>= a.treat .flatten := by
  have hfound : a.found (.view view true) =
      fun c => (a.found (.view view false) c).map fun found => found.flatMap a.foundByFlattening :=
    funext (a.foundInView_array view)
  rw [treat, hfound, Attempt.mapM_map, treat]
  cases hfounds : s.toList.mapM (a.found (.view view false)) with
  | error e   => rfl
  | ok founds =>
      have hconsistent : CandidateSet.Consistent founds.flatten :=
        CandidateSet.consistent_of_faithful fun d hd => a.faithful_of_founds hfounds hd
      refine Eq.trans ?_ (a.treat_flatten _).symm
      rw [CandidateSet.ofList_flatMap_ofList _ hconsistent, List.flatMap_def, List.map_flatten,
        List.flatten_flatten, List.map_map]
      rfl

/-- There is one descriptor at most for each candidate. -/
theorem length_le_of_foundInView {c : Candidate} {found : List Candidate}
    (h : a.foundInView view false c = .ok found) : found.length ≤ 1 := by
  cases c with
  | descriptor d => cases h
  | value v      =>
      cases h
      exact Nat.zero_le 1
  | entity id    =>
      obtain ⟨outfit, -, rfl⟩ := Attempt.map_eq_ok.1 h
      exact Nat.le_refl 1

theorem size_le_of_treat_view {s made : CandidateSet} (h : a.treat (.view view false) s = .ok made) :
    made.size ≤ s.size := by
  obtain ⟨founds, hfounds, rfl⟩ := Attempt.map_eq_ok.1 h
  have hlength : ∀ n ∈ founds.map List.length, n ≤ 1 := by
    intro n hn
    obtain ⟨found, hfound, rfl⟩ := List.mem_map.1 hn
    obtain ⟨c, -, hc⟩ := Attempt.exists_of_mem_mapM hfounds hfound
    exact a.length_le_of_foundInView view hc
  obtain ⟨-, rfl⟩ := (Attempt.mapM_eq_ok_iff []).1 hfounds
  refine Nat.le_trans (CandidateSet.size_ofList_le _) ?_
  rw [List.length_flatten, CandidateSet.size]
  simpa using List.sum_le_card_nsmul _ 1 hlength

end Asking

/-- Where there is depth to spare, both ways come to the same. -/
theorem Context.outcome_flatten_view (c : Context) (view : View) {p : Query} {d : Nat}
    (h : d + p.depth + 2 ≤ c.settings.maxDepth) :
    c.outcome (.flatten (.step view.field false p)) d = c.outcome (.step view.field true p) d := by
  have hparent : c.outcome p (d + 1 + 1) = c.outcome p (d + 1) :=
    c.outcome_eq_of_fits (by omega) (by omega)
  have hd : d + 1 < c.settings.maxDepth := by omega
  rw [outcome, outcome, outcome, Treatment.ofStep_view, Treatment.ofStep_view, hparent]
  congr 1
  cases hp : c.outcome p (d + 1) with
  | error e => exact congrArg (· >>= c.treat .flatten) (c.within_error_of_lt hd e)
  | ok s    =>
      refine Eq.trans ?_ (c.treat_view_array view s).symm
      congr 1
      cases hmade : c.treat (.view view false) s with
      | error e => exact (congrArg _ hmade).trans (c.within_error_of_lt hd e)
      | ok made =>
          have hsize := Nat.le_trans (c.size_le_of_treat_view view hmade) (c.size_le_of_outcome hp)
          exact c.within_eq_ok.2 ⟨hd, hmade, hsize⟩

/-- **To flatten descriptors is to step in the array form.**  Under the standard router, whatever the
view, the branch, the actor, the scene and the settings are, with depth for two nodes above the branch:
a step to a view that is flattened has the outcome of its array form, the same answer in the same order
or the same error, whatever the score tables remember. -/
theorem Engine.flattened_view_eq_array_form (settings : Settings) (scores scores' : ScoreTable)
    (view : View) (p : Query) (actor : EntityId) (scene : Scene) (traced : Bool)
    (h : p.depth + 2 ≤ settings.maxDepth) :
    let outcome := fun scores q =>
      ((Engine.mk settings .standard scores).ask q actor scene traced).1.outcome
    outcome scores (.flatten (.step view.field false p)) = outcome scores' (.step view.field true p) := by
  intro outcome
  let e : Engine := { settings, router := .standard, scores }
  let e' : Engine := { settings, router := .standard, scores := scores' }
  have hdepth : 0 + p.depth + 2 ≤ (e.context actor scene traced).settings.maxDepth := by
    rw [Nat.zero_add]
    exact h
  calc outcome scores (.flatten (.step view.field false p))
    _ = ((e.context actor scene traced).outcome (.flatten (.step view.field false p)) 0).bind
          Answer.ofSet := e.ask_outcome rfl _ actor scene traced
    _ = ((e.context actor scene traced).outcome (.step view.field true p) 0).bind Answer.ofSet := by
          rw [Context.outcome_flatten_view _ view hdepth]
    _ = outcome scores' (.step view.field true p) := (e'.ask_outcome rfl _ actor scene traced).symm

/-- The hero and the squire, his friend, have but one cloak. -/
def sharedCloak : Store :=
  let cloak := ("torso_upper", Json.object [("outer", .str "cloak")])
  let hat := ("head_gear", Json.object [("outer", .str "hat")])
  (((∅ : Store).insert "hero" "friend" (.str "squire")).insert "hero" equipmentComponent
    (.object [("equipped", .object [cloak])])).insert "squire" equipmentComponent
      (.object [("equipped", .object [hat, cloak])])

/-- What the two have on is listed in the order in which they are met, and the cloak once. -/
theorem Engine.shared_cloak_is_listed_once :
    let outcome := fun scores q =>
      ((Engine.mk {} .standard scores).ask q "hero" { world := sharedCloak.world } false).1.outcome
    let both : Query := .union (.root .actor) (.step "friend" false (.root .actor))
    let listed : Answer := ⟨[.entity "cloak", .entity "hat"]⟩
    outcome default (.step View.topmost.field true both) = .ok listed ∧
    outcome default (.flatten (.step View.topmost.field false both)) = .ok listed := by
  intro outcome both listed
  have harray : outcome default (.step View.topmost.field true both) = .ok listed := rfl
  have hflattened := flattened_view_eq_array_form {} default default .topmost both "hero"
    { world := sharedCloak.world } false (by decide)
  exact ⟨harray, hflattened.trans harray⟩

end EntityQuery
