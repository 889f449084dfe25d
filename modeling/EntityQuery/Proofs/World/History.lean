import EntityQuery.Proofs.Json.Sameness
import EntityQuery.Proofs.Support.Counting
import EntityQuery.Proofs.Support.Entries
import EntityQuery.Proofs.Text.ByteOrder
import EntityQuery.World.Store
import Mathlib.Data.List.Induction
import Mathlib.Data.String.Basic

/-!
# The history of a store

A store comes about by changes: components are given to entities and taken from them.  A history of changes
describes a plain map from entities and components to data (`Store.described`), and the store has nothing
but what is described.

* `Store.component?_after`: it answers as the map does.
* `Store.mem_names_iff`, `Store.mem_holders_iff`: an entity is there as long as it has a component.
* `Store.ext_component?`, `Store.same_iff`: so stores that answer alike are one store, and stores that give
  equal answers are equal.

`Store.holds_what_is_described` puts these together.
-/

namespace EntityQuery

/-! ### Entries and tables -/

namespace Entries

variable {α : Type} {r : α → α → Bool} {name : String} {xs ys : List (String × α)}

theorem get?_ne_none_iff : get? name xs ≠ none ↔ name ∈ xs.map (·.1) := by
  induction xs with
  | nil          => simp [get?]
  | cons x xs ih =>
      rw [get?, List.map_cons, List.mem_cons]
      split
      · rename_i hname
        simp [hname]
      · rename_i hname
        rw [ih, or_iff_right (Ne.symm hname)]

theorem get?_of_lt (h : ∀ x ∈ xs, name < x.1) : get? name xs = none := by
  cases hget : get? name xs with
  | none       => rfl
  | some value => exact absurd (h _ (mem_of_get? hget)) (String.lt_irrefl _)

theorem rel_get?_of_same (h : same r xs ys) (name : String) :
    Option.Rel (fun a b => r a b) (get? name xs) (get? name ys) := by
  fun_induction same r xs ys with
  | case1               => exact .none
  | case2 x xs y ys ih  =>
      obtain ⟨hname, hvalue, hrest⟩ : x.1 = y.1 ∧ r x.2 y.2 ∧ same r xs ys := of_decide_eq_true h
      rw [get?, get?, ← hname]
      split
      · exact .some hvalue
      · exact ih hrest
  | case3               => cases h

/-- Ascending entries are equal if they bind each name to equal values. -/
theorem Ascending.same_of_rel (hx : Ascending xs) (hy : Ascending ys)
    (h : ∀ name, Option.Rel (fun a b => r a b) (get? name xs) (get? name ys)) : same r xs ys := by
  induction xs generalizing ys with
  | nil =>
      cases ys with
      | nil       => rfl
      | cons y ys =>
          have hfirst := h y.1
          rw [get?, get?, if_pos rfl] at hfirst
          cases hfirst
  | cons x xs ih =>
      have hfirst := h x.1
      rw [get?, if_pos rfl] at hfirst
      cases ys with
      | nil       => cases hfirst
      | cons y ys =>
          obtain ⟨hdx, tlx⟩ := List.pairwise_cons.1 hx
          obtain ⟨hdy, tly⟩ := List.pairwise_cons.1 hy
          -- A name before all others is bound on one side only.
          rcases lt_trichotomy x.1 y.1 with hlt | heq | hlt
          · have hnone : get? x.1 (y :: ys) = none := get?_of_lt <| List.forall_mem_cons.2
              ⟨hlt, fun z hz => String.lt_trans hlt (hdy z hz)⟩
            rw [hnone] at hfirst
            cases hfirst
          · rw [get?, if_pos heq.symm] at hfirst
            obtain ⟨hvalue⟩ := hfirst
            refine decide_eq_true ⟨heq, hvalue, ih tlx tly fun name => ?_⟩
            by_cases hname : x.1 = name
            · subst hname
              rw [get?_of_lt hdx, get?_of_lt (heq ▸ hdy)]
              exact .none
            · have hrest := h name
              rwa [get?, get?, if_neg hname, if_neg (heq ▸ hname)] at hrest
          · have hnone : get? y.1 (x :: xs) = none := get?_of_lt <| List.forall_mem_cons.2
              ⟨hlt, fun z hz => String.lt_trans hlt (hdx z hz)⟩
            have hfirst := h y.1
            rw [hnone, get?, if_pos rfl] at hfirst
            cases hfirst

end Entries

namespace Table

variable {α : Type} {r : α → α → Bool} {s t : Table α} {name : String}

theorem mem_names_iff : name ∈ s.names ↔ s.get? name ≠ none :=
  Entries.get?_ne_none_iff.symm

theorem nodup_names (s : Table α) : s.names.Nodup :=
  (List.pairwise_map.2 s.ascending).imp ne_of_lt

theorem same_iff : s.same r t ↔ ∀ name, Option.Rel (fun a b => r a b) (s.get? name) (t.get? name) :=
  ⟨Entries.rel_get?_of_same, s.ascending.same_of_rel t.ascending⟩

end Table

theorem ne_none_iff_of_rel {α β : Type} {r : α → β → Prop} {x : Option α} {y : Option β}
    (h : Option.Rel r x y) : x ≠ none ↔ y ≠ none := by
  cases h <;> simp

namespace Store

variable {s t : Store} {entity : EntityId} {component : String}

/-! ### What is there -/

theorem component?_eq_bind (s : Store) (entity : EntityId) (component : String) :
    s.component? entity component = (s.entities.get? entity).bind (·.get? component) := by
  rw [component?, components]
  cases s.entities.get? entity <;> rfl

/-- **An entity is there as long as it has a component.** -/
theorem mem_names_iff :
    entity ∈ s.entities.names ↔ ∃ component, s.component? entity component ≠ none := by
  simp only [Table.mem_names_iff, component?_eq_bind]
  cases h : s.entities.get? entity with
  | none            => simp
  | some components =>
      have hentries := s.inhabited _ (Entries.mem_of_get? h)
      obtain ⟨e, rest, hfirst⟩ := List.exists_cons_of_ne_nil hentries
      have hname : e.1 ∈ components.names := List.mem_map_of_mem (hfirst ▸ List.mem_cons_self)
      exact iff_of_true nofun ⟨e.1, Table.mem_names_iff.1 hname⟩

theorem get?_entities (s : Store) (entity : EntityId) :
    s.entities.get? entity = if entity ∈ s.entities.names then some (s.components entity) else none := by
  simp only [Table.mem_names_iff, components]
  cases s.entities.get? entity <;> simp

theorem mem_holders_iff : entity ∈ s.holders component ↔ s.component? entity component ≠ none := by
  simp only [holders, List.mem_map, List.mem_filter]
  constructor
  · rintro ⟨e, ⟨he, hcontains⟩, rfl⟩
    rw [component?_eq_bind, Table.get?, s.entities.ascending.get?_of_mem he]
    exact Option.isSome_iff_ne_none.1 hcontains
  · intro h
    have hname : entity ∈ s.entities.names := mem_names_iff.2 ⟨component, h⟩
    have hget := s.get?_entities entity
    rw [if_pos hname] at hget
    exact ⟨_, ⟨Entries.mem_of_get? hget, Option.isSome_iff_ne_none.2 h⟩, rfl⟩

theorem pairwise_holders (s : Store) (component : String) : (s.holders component).Pairwise (· < ·) :=
  List.pairwise_map.2 (s.entities.ascending.filter _)

theorem isEmpty_iff : s.isEmpty ↔ ∀ entity component, s.component? entity component = none := by
  have hnames : s.isEmpty ↔ ∀ entity, entity ∉ s.entities.names := by
    rw [isEmpty, Table.isEmpty, List.isEmpty_iff, ← List.map_eq_nil_iff, List.eq_nil_iff_forall_not_mem]
    rfl
  simp only [hnames, mem_names_iff, not_exists, not_not]

theorem size_eq_encard (s : Store) :
    {entity | ∃ component, s.component? entity component ≠ none}.encard = s.size := by
  refine (encard_eq_length s.entities.nodup_names fun _ => mem_names_iff.symm).trans ?_
  rw [Table.names, List.length_map]
  rfl

/-! ### Equal stores -/

/-- **Stores that answer alike are one store.** -/
theorem ext_component?
    (h : ∀ entity component, s.component? entity component = t.component? entity component) : s = t := by
  have hentities : s.entities = t.entities := Table.ext_get? fun entity => by
    have hcomponents : s.components entity = t.components entity := Table.ext_get? (h entity)
    have hnames : entity ∈ s.entities.names ↔ entity ∈ t.entities.names := by
      simp only [mem_names_iff, h]
    simp only [get?_entities, hnames, hcomponents]
  obtain ⟨entities, _⟩ := s
  obtain rfl : entities = t.entities := hentities
  rfl

/-- **Stores are equal if they give equal answers.** -/
theorem same_iff :
    s.same t ↔ ∀ entity component,
      Option.Rel (fun v w => v.same w) (s.component? entity component) (t.component? entity component) := by
  rw [same, Table.same_iff]
  refine forall_congr' fun entity => ⟨fun h component => ?_, fun h => ?_⟩
  · rw [component?_eq_bind, component?_eq_bind]
    generalize s.entities.get? entity = x at h
    generalize t.entities.get? entity = y at h
    cases h with
    | none   => exact .none
    | some h => exact Table.same_iff.1 h component
  · have hnames : entity ∈ s.entities.names ↔ entity ∈ t.entities.names := by
      rw [mem_names_iff, mem_names_iff]
      exact exists_congr fun component => ne_none_iff_of_rel (h component)
    rw [get?_entities, get?_entities]
    by_cases hentity : entity ∈ s.entities.names
    · rw [if_pos hentity, if_pos (hnames.1 hentity)]
      exact .some (Table.same_iff.2 h)
    · rw [if_neg hentity, if_neg (hnames.not.1 hentity)]
      exact .none

/-! ### Histories -/

/-- What may be done to a store. -/
inductive Change where
  | insert (entity : EntityId) (component : String) (data : Json)
  | remove (entity : EntityId) (component : String)

namespace Change

/-- The entity and the component that are changed. -/
def place : Change → EntityId × String
  | insert entity component _ => (entity, component)
  | remove entity component   => (entity, component)

/-- The data that is there afterwards. -/
def data? : Change → Option Json
  | insert _ _ data => some data
  | remove _ _      => none

end Change

/-- Changes a store; also the data that was there before. -/
def change (s : Store) : Change → Option Json × Store
  | .insert entity component data => s.exchange entity component data
  | .remove entity component      => s.take entity component

/-- The store after changes, one after the other, to an empty one. -/
def after (changes : List Change) : Store :=
  changes.foldl (fun s c => (s.change c).2) ∅

/-- The map that changes describe: the data that each entity has of each component. -/
def described (changes : List Change) : EntityId × String → Option Json :=
  changes.foldl (fun m c => Function.update m c.place c.data?) fun _ => none

theorem after_concat (changes : List Change) (c : Change) :
    after (changes ++ [c]) = ((after changes).change c).2 :=
  List.foldl_append ..

theorem described_concat (changes : List Change) (c : Change) :
    described (changes ++ [c]) = Function.update (described changes) c.place c.data? :=
  List.foldl_append ..

theorem component?_change (s : Store) (c : Change) (p : EntityId × String) :
    (s.change c).2.component? p.1 p.2 =
      Function.update (fun p => s.component? p.1 p.2) c.place c.data? p := by
  cases c with
  | insert entity component data =>
      simp only [change, exchange, component?_insert, Function.update_apply, Change.place, Change.data?,
        Prod.ext_iff]
  | remove entity component      =>
      simp only [change, take, component?_erase, Function.update_apply, Change.place, Change.data?,
        Prod.ext_iff]

/-- **A store answers as its history describes.** -/
theorem component?_after (changes : List Change) (p : EntityId × String) :
    (after changes).component? p.1 p.2 = described changes p := by
  induction changes using List.reverseRecOn generalizing p with
  | nil                         => rfl
  | append_singleton changes c ih =>
      have hbefore : (fun p => (after changes).component? p.1 p.2) = described changes := funext ih
      rw [after_concat, component?_change, hbefore, described_concat]

/-- **A store has what its history describes, and nothing else.**  It answers as the described map does, and
so a change tells what the map had.  The entities are those with a component, and the holders of a component
ascend in the order of their bytes.  Histories that describe one map come to one store; so the stores are
equal, unless there is a NaN in them. -/
theorem holds_what_is_described (changes : List Change) :
    let s := after changes
    let m := described changes
    (∀ entity component, s.world.component? entity component = .ok (m (entity, component)) ∧
      s.world.has entity component = .ok (m (entity, component)).isSome) ∧
    (∀ c, s.change c = (m c.place, after (changes ++ [c]))) ∧
    {entity | ∃ component, m (entity, component) ≠ none}.encard = s.size ∧
    (s.isEmpty ↔ ∀ p, m p = none) ∧
    (∀ component, ∃ ids, s.world.holders component = .ok ids ∧
      (∀ entity, entity ∈ ids ↔ m (entity, component) ≠ none) ∧
      ids.Pairwise fun a b => Text.bytes a < Text.bytes b) ∧
    ∀ changes', (after changes' = s ↔ described changes' = m) ∧
      (s.same (after changes') ↔ ∀ p, Option.Rel (fun v w => v.same w) (m p) (described changes' p)) ∧
      ((∀ p v, m p = some v → v.WithoutNaN) → described changes' = m → s.same (after changes')) := by
  intro s m
  have hm : ∀ entity component, s.component? entity component = m (entity, component) :=
    fun entity component => component?_after changes (entity, component)
  have hsame : ∀ changes', s.same (after changes') ↔
      ∀ p, Option.Rel (fun v w => v.same w) (m p) (described changes' p) := fun changes' => by
    simp only [same_iff, hm, Prod.forall, ← component?_after changes']
  refine ⟨fun entity component => ?_, fun c => ?_, ?_, ?_, fun component => ?_,
    fun changes' => ⟨?_, hsame _, ?_⟩⟩
  · simp only [world, hm, and_self]
  · rw [after_concat, ← hm]
    cases c <;> rfl
  · simp only [← hm, size_eq_encard]
  · simp only [isEmpty_iff, hm, Prod.forall]
  · refine ⟨_, rfl, fun entity => ?_, (s.pairwise_holders component).imp Text.bytes_lt⟩
    rw [mem_holders_iff, hm]
  · constructor
    · rintro heq
      refine funext fun p => ?_
      rw [← component?_after, heq, hm]
    · intro heq
      refine ext_component? fun entity component => ?_
      rw [component?_after changes' (entity, component), heq, hm]
  · intro hnan heq
    refine (hsame changes').2 fun p => ?_
    rw [heq]
    cases hp : m p with
    | none   => exact .none
    | some v => exact .some (hnan p v hp).same_self

/-- A hero with a title, and a ghost that is gone again: whether the title was given before the ghost was
banished or after, the store has the one entity with its one component. -/
theorem ghost_leaves_nothing_behind :
    let changes : List Change :=
      [.insert "hero" "title" (.str "king"), .insert "ghost" "title" .null, .remove "ghost" "title"]
    let changes' : List Change :=
      [.insert "ghost" "title" .null, .remove "ghost" "title", .remove "hero" "name",
        .insert "hero" "title" (.str "king")]
    (∀ p v, described changes p = some v → v.WithoutNaN) ∧ described changes' = described changes ∧
    after changes' = after changes ∧ (after changes).same (after changes') ∧
    (after changes).world.holders "title" = .ok ["hero"] ∧
    {entity | ∃ component, described changes (entity, component) ≠ none}.encard = 1 := by
  intro changes changes'
  let title : EntityId × String → Option Json :=
    Function.update (fun _ => none) ("hero", "title") (some (.str "king"))
  obtain ⟨htitle, htitle'⟩ : described changes = title ∧ described changes' = title := by
    constructor
    all_goals
      funext p
      simp only [changes, changes', title, described, List.foldl_cons, List.foldl_nil,
        Function.update_apply, Change.place, Change.data?]
      split_ifs <;> simp_all
  have heq : described changes' = described changes := htitle'.trans htitle.symm
  have hnan : ∀ p v, described changes p = some v → v.WithoutNaN := by
    intro p v h
    simp only [htitle, title, Function.update_apply] at h
    split at h <;> cases h
    exact .str _
  obtain ⟨-, -, hsize, -, -, hone⟩ := holds_what_is_described changes
  obtain ⟨hstore, -, hsame⟩ := hone changes'
  exact ⟨hnan, heq, hstore.2 heq, hsame hnan heq, rfl, hsize⟩

end Store

end EntityQuery
