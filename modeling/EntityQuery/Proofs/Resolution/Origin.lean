import EntityQuery.Proofs.Resolution.Treatment

/-!
# Where candidates come from

Whatever a treatment finds in a candidate is one of four things (`Asking.Origin`): an entity, the value of
a field, the candidate itself, or a descriptor that a step to a view makes of an outfit.  What holds of
these holds of all that is found (`Asking.origin_of_found`).
-/

namespace EntityQuery

open Attire (BodySlot View)

namespace Asking

variable (a : Asking)

/-- What a treatment may find in a candidate. -/
inductive Origin (t : Treatment) (c : Candidate) : Candidate → Prop where
  | entity (id : EntityId) : Origin t c (.entity id)
  | fieldValue {v : Json} (hv : v ≠ .null) : Origin t c (.ofFieldValue v)
  | itself (hc : ∀ d, c ≠ .descriptor d) : Origin t c c
  | descriptor {owner : EntityId} {view : View} {outfit : Attire.Outfit} (hview : t = .view view false)
      (houtfit : a.scene.world.outfit owner = .ok outfit) : Origin t c (.descriptor ⟨owner, view, outfit⟩)

variable {a} {t : Treatment} {c d : Candidate} {found : List Candidate}

theorem Origin.of_mem_entities {ids : List EntityId} (hd : d ∈ ids.map .entity) : a.Origin t c d := by
  obtain ⟨id, -, rfl⟩ := List.mem_map.1 hd
  exact .entity id

/-- Elements of a list that are `null` are passed over. -/
theorem Origin.of_mem_ofField {v : Json} (hd : d ∈ Candidate.ofField v) : a.Origin t c d := by
  cases v with
  | null   => cases hd
  | arr vs =>
      obtain ⟨v, hv, rfl⟩ := List.mem_map.1 hd
      refine .fieldValue ?_
      rintro rfl
      simp [Json.isNull] at hv
  | bool _ | num _ | str _ | obj _ =>
      obtain rfl := List.mem_singleton.1 hd
      exact .fieldValue (by simp)

theorem Origin.of_foundInField {field : String} (h : a.foundInField field c = .ok found) (hd : d ∈ found) :
    a.Origin t c d := by
  obtain ⟨data?, -, rfl⟩ := Attempt.map_eq_ok.1 h
  cases data? with
  | none      => cases hd
  | some data => exact .of_mem_ofField hd

theorem Origin.of_foundInSlot {slot : BodySlot} (h : a.foundInSlot slot c = .ok found) (hd : d ∈ found) :
    a.Origin t c d := by
  cases c with
  | entity _ | value _ => exact .of_foundInField h hd
  | descriptor x       =>
      cases h
      exact .of_mem_entities hd

theorem Origin.of_foundInView {view : View} {isArray : Bool} (h : a.foundInView view isArray c = .ok found)
    (hd : d ∈ found) : a.Origin (.view view isArray) c d := by
  cases c with
  | value v      => cases h; cases hd
  | descriptor x => cases h
  | entity id    =>
      obtain ⟨outfit, houtfit, rfl⟩ := Attempt.map_eq_ok.1 h
      cases isArray with
      | true  => exact .of_mem_entities hd
      | false =>
          obtain rfl := List.mem_singleton.1 hd
          exact .descriptor rfl (Attempt.mapError_eq_ok.1 houtfit)

/-- A filter passes on the candidate as it is, and no descriptor. -/
theorem Origin.of_foundByFilter {predicate : Json} (h : a.foundByFilter predicate c = .ok found)
    (hd : d ∈ found) : a.Origin t c d := by
  unfold foundByFilter at h
  split at h
  · cases h
  · rename_i hc
    split at h
    · cases h
      split at hd
      · obtain rfl := List.mem_singleton.1 hd
        exact .itself hc
      · cases hd
    · cases h
    · split at h
      · cases h
      · cases h
        cases hd

theorem Origin.of_foundByFlattening (hd : d ∈ a.foundByFlattening c) : a.Origin t c d := by
  unfold foundByFlattening at hd
  split at hd
  · exact .of_mem_ofField hd
  · exact .of_mem_entities hd
  · rename_i hc
    obtain rfl := List.mem_singleton.1 hd
    exact .itself hc

/-- **Whatever is found in a candidate has an origin.** -/
theorem origin_of_found (h : a.found t c = .ok found) (hd : d ∈ found) : a.Origin t c d := by
  cases t with
  | field name        => exact .of_foundInField h hd
  | slot slot         => exact .of_foundInSlot h hd
  | view view isArray => exact .of_foundInView h hd
  | filter predicate  => exact .of_foundByFilter h hd
  | flatten           =>
      cases h
      exact .of_foundByFlattening hd

/-- Descriptors are made by scalar steps to a view alone, of outfits that were read. -/
theorem Origin.of_descriptor {x : Descriptor} (h : a.Origin t c (.descriptor x)) :
    t = .view x.view false ∧ a.scene.world.outfit x.owner = .ok x.outfit := by
  generalize hd : Candidate.descriptor x = d at h
  cases h with
  | entity id                  => cases hd
  | @fieldValue v hv           => cases v <;> cases hd
  | itself hc                  => exact (hc x hd.symm).elim
  | descriptor hview houtfit   =>
      cases hd
      exact ⟨hview, houtfit⟩

end Asking

end EntityQuery
