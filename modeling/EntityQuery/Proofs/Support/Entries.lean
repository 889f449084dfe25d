import EntityQuery.Table

/-!
# Entries made of lists

Bindings of different names, inserted one after the other, do not get in each other's way: each is found
under its name, whatever their order (`Entries.get?_ofList`).
-/

namespace EntityQuery.Entries

variable {α : Type} {name : String} {value : α} {bindings entries : List (String × α)}

theorem get?_foldl_insert (h : ∀ b ∈ bindings, b.1 ≠ name) (entries : List (String × α)) :
    get? name (bindings.foldl (fun entries b => insert b.1 b.2 entries) entries) = get? name entries := by
  induction bindings generalizing entries with
  | nil                => rfl
  | cons b bindings ih =>
      obtain ⟨hb, hbindings⟩ := List.forall_mem_cons.1 h
      rw [List.foldl_cons, ih hbindings, get?_insert, if_neg hb.symm]

theorem Ascending.mem_iff_get? (h : Ascending entries) :
    (name, value) ∈ entries ↔ get? name entries = some value :=
  ⟨h.get?_of_mem, mem_of_get?⟩

theorem get?_foldl_insert_of_mem (h : bindings.Pairwise fun a b => a.1 ≠ b.1)
    (hmem : (name, value) ∈ bindings) (entries : List (String × α)) :
    get? name (bindings.foldl (fun entries b => insert b.1 b.2 entries) entries) = some value := by
  induction bindings generalizing entries with
  | nil                => cases hmem
  | cons b bindings ih =>
      obtain ⟨hb, hbindings⟩ := List.pairwise_cons.1 h
      rw [List.foldl_cons]
      rcases List.mem_cons.1 hmem with rfl | hmem
      · rw [get?_foldl_insert fun b hmem => (hb b hmem).symm, get?_insert, if_pos rfl]
      · exact ih hbindings hmem _

/-- Entries made of bindings of different names have these bindings, and no others. -/
theorem get?_ofList (h : bindings.Pairwise fun a b => a.1 ≠ b.1) :
    get? name (ofList bindings) = some value ↔ (name, value) ∈ bindings := by
  constructor
  · intro hget
    by_cases hname : ∃ b ∈ bindings, b.1 = name
    · obtain ⟨⟨_, value'⟩, hmem, rfl⟩ := hname
      rw [ofList, get?_foldl_insert_of_mem h hmem] at hget
      cases hget
      exact hmem
    · have hother : ∀ b ∈ bindings, b.1 ≠ name := fun b hb heq => hname ⟨b, hb, heq⟩
      rw [ofList, get?_foldl_insert hother] at hget
      cases hget
  · intro hmem
    exact get?_foldl_insert_of_mem h hmem []

theorem get?_map {β : Type} (f : α → β) (name : String) (entries : List (String × α)) :
    get? name (entries.map fun e => (e.1, f e.2)) = (get? name entries).map f := by
  induction entries with
  | nil              => rfl
  | cons e entries ih =>
      rw [List.map_cons, get?, get?, ih]
      split <;> rfl

theorem mem_of_mem_ofList {x : String × α} (h : x ∈ ofList bindings) : x ∈ bindings := by
  suffices ∀ entries, x ∈ bindings.foldl (fun entries b => insert b.1 b.2 entries) entries →
      x ∈ entries ∨ x ∈ bindings from (this [] h).resolve_left List.not_mem_nil
  clear h
  induction bindings with
  | nil                => exact fun _ h => .inl h
  | cons b bindings ih =>
      intro entries h
      rcases ih _ h with h | h
      · exact (mem_insert h).elim (fun heq => .inr (heq ▸ List.mem_cons_self)) .inl
      · exact .inr (List.mem_cons_of_mem b h)

end EntityQuery.Entries
