import EntityQuery.Proofs.Predicate.Agreement
import EntityQuery.Proofs.World.Extension

/-!
# Predicates over worlds that answer more

A predicate has the value that it has over a world also over any world that extends it, unless a reading
fails on the way; a failure that is no fault of the world is the same over both
(`Predicate.Bindings.evaluate_same`).  The world has a part only in what is looked up, and of that alone it
has to be shown (`Predicate.Bindings.between_inWorld`).
-/

namespace EntityQuery

/-- The error is a fault of `w`. -/
def PredicateError.IsFaultOf (w : World) : PredicateError → Prop
  | unread fault => w.Fails fault
  | _            => False

namespace Predicate

open Attempt (SameUnless)

/-- What comes of `w` and of another world is the same, unless it is a fault of `w`. -/
abbrev SameValue {α : Type} (w : World) :
    Except PredicateError α → Except PredicateError α → Prop :=
  SameUnless (PredicateError.IsFaultOf w) fun e => ¬ e.IsUnread

theorem SameValue.of_reading {α : Type} {w : World} {x y : Except ReadFault α}
    (h : w.SameReading x y) : SameValue w (x.mapError .unread) (y.mapError .unread) :=
  h.mapError (fun _ => id) fun _ => False.elim

/-- The agreement of values over `w` with those over another world. -/
def Agreement.faulty (w : World) : Agreement where
  Holds := SameValue w
  pure a := .ok a
  failure h := .error h
  bind hxy hfg := hxy.bind hfg

namespace Bindings

/-- The bindings in another world. -/
def inWorld (b : Bindings) (w : World) : Bindings :=
  { b with scene := { b.scene with world := w } }

theorem entityPath_components (b : Bindings) (id : EntityId) (component : String)
    (ss : List String) :
    b.entityPath id ("components" :: component :: ss) =
      ((b.scene.world.component? id component).mapError .unread).map
        (·.elim .null (walk · ss)) := by
  simp only [entityPath]
  cases b.scene.world.component? id component with
  | error fault => rfl
  | ok data?    => cases data? <;> rfl

variable {b : Bindings} {w : World} (h : w.Extends b.scene.world)
include h

theorem entityPath_same (id : EntityId) (path : List String) :
    SameValue b.scene.world (b.entityPath id path) ((b.inWorld w).entityPath id path) := by
  -- Only a path into a component reads of the world.
  by_cases hpath : ∃ component ss, path = "components" :: component :: ss
  · obtain ⟨component, ss, rfl⟩ := hpath
    rw [entityPath_components, entityPath_components]
    exact (SameValue.of_reading (h.component?_same id component)).map _
  · unfold entityPath
    split
    · exact .ok _
    · exact .ok _
    · exact absurd ⟨_, _, rfl⟩ hpath
    · exact .ok _

theorem subjectPath_same (path : List String) :
    SameValue b.scene.world (b.subjectPath path) ((b.inWorld w).subjectPath path) := by
  unfold subjectPath
  simp only [inWorld]
  cases b.subject with
  | none   => exact .ok _
  | some c =>
      cases c with
      | entity id    => exact entityPath_same h id path
      | value v      => exact .ok _
      | descriptor d => exact .ok _

theorem lookup_same (path : String) :
    SameValue b.scene.world (b.lookup path) ((b.inWorld w).lookup path) := by
  unfold lookup
  cases segments path with
  | nil          => exact subjectPath_same h []
  | cons root ss =>
      simp only
      split
      · exact subjectPath_same h ss
      split
      · exact entityPath_same h b.actor ss
      split
      · simp only [inWorld]
        cases b.scene.location with
        | some place => exact entityPath_same h place ss
        | none       => exact .ok _
      · simp only [inWorld]
        cases b.scene.vars.get? root with
        | some v => exact .ok _
        | none   => exact .error id

/-- A root bound to nothing is taken for absence, a fault is not. -/
theorem absent_same (path : String) :
    SameValue b.scene.world (absent b path) (absent (b.inWorld w) path) := by
  unfold absent
  rcases lookup_same h path with ⟨e, he, hfault⟩ | ⟨hcommon, heq⟩
  · rw [he]
    cases e with
    | unread fault => exact .inl ⟨_, rfl, hfault⟩
    | _            => exact hfault.elim
  · rw [heq]
    refine .refl fun e he => ?_
    split at he
    · cases he
    · cases he
    · rename_i e' hlookup
      cases he
      exact hcommon e hlookup

theorem holdsComponent_same (target : Json) (component : String) :
    SameValue b.scene.world (holdsComponent b target component)
      (holdsComponent (b.inWorld w) target component) := by
  cases target with
  | str id =>
      have hread : ∀ b' : Bindings, holdsComponent b' (.str id) component =
          ((b'.scene.world.has id component).mapError .unread).map .bool := by
        intro b'
        simp only [holdsComponent]
        cases b'.scene.world.has id component <;> rfl
      rw [hread, hread]
      exact (SameValue.of_reading (h.has_same id component)).map _
  | null                          => exact .ok _
  | bool _ | num _ | arr _ | obj _ => exact .error id

/-- What is looked up in the two worlds agrees. -/
theorem between_inWorld : (Agreement.faulty b.scene.world).Between b (b.inWorld w) where
  conditions := rfl
  lookup := lookup_same h
  absent := absent_same h
  holdsComponent := holdsComponent_same h

/-- **The value of a predicate is the same over a world that answers more**, unless a reading fails on the
way to it. -/
theorem evaluate_same (predicate : Json) :
    SameValue b.scene.world (b.evaluate predicate) ((b.inWorld w).evaluate predicate) :=
  (between_inWorld h).evaluate predicate

end Bindings

end Predicate

end EntityQuery
