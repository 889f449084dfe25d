/-!
# Tables

A table maps names to values.  Its entries are listed once per name, in ascending order of the
names, so a table is determined by what it maps each name to (`ext_get?`).  Names are compared
character by character, by code point, which is also the byte order of their UTF-8 encodings.
-/

namespace EntityQuery

namespace Entries

/-- What the entries bind `name` to. -/
def get? {α : Type} (name : String) : List (String × α) → Option α
  | []           => none
  | e :: entries => if e.1 = name then some e.2 else get? name entries

/-- The entries with `name` bound to `value`: in the place of an entry of that name, or before the
first entry of a later name. -/
def insert {α : Type} (name : String) (value : α) : List (String × α) → List (String × α)
  | []           => [(name, value)]
  | e :: entries =>
      if name < e.1 then (name, value) :: e :: entries
      else if name = e.1 then (name, value) :: entries
      else e :: insert name value entries

/-- The entries without those of `name`. -/
def erase {α : Type} (name : String) (entries : List (String × α)) : List (String × α) :=
  entries.filter (fun e => e.1 ≠ name)

/-- Each name of the list bound to the last value it is listed with, in ascending order. -/
def ofList {α : Type} (bindings : List (String × α)) : List (String × α) :=
  bindings.foldl (fun entries e => insert e.1 e.2 entries) []

/-- Equality of entries, one by one: of the names, and of the values as `r` has it. -/
def same {α : Type} (r : α → α → Bool) : List (String × α) → List (String × α) → Bool
  | [],      []      => true
  | x :: xs, y :: ys => x.1 = y.1 ∧ r x.2 y.2 ∧ same r xs ys
  | _,       _       => false

/-- Names in strictly ascending order. -/
def Ascending {α : Type} (entries : List (String × α)) : Prop :=
  entries.Pairwise (fun a b => a.1 < b.1)

theorem insert_ne_nil {α : Type} (name : String) (value : α) (entries : List (String × α)) :
    insert name value entries ≠ [] := by
  cases entries with
  | nil => simp [insert]
  | cons e entries => grind [insert]

theorem mem_insert {α : Type} {name : String} {value : α} {x : String × α}
    {entries : List (String × α)} (h : x ∈ insert name value entries) :
    x = (name, value) ∨ x ∈ entries := by
  induction entries with
  | nil => simpa [insert] using h
  | cons e entries ih =>
      rw [insert] at h
      split at h
      · simpa using h
      · split at h
        · rcases List.mem_cons.1 h with h | h
          · exact .inl h
          · exact .inr (List.mem_cons_of_mem _ h)
        · rcases List.mem_cons.1 h with h | h
          · exact .inr (h ▸ List.mem_cons_self)
          · exact (ih h).imp id (List.mem_cons_of_mem _)

theorem Ascending.insert {α : Type} {entries : List (String × α)} (h : Ascending entries)
    (name : String) (value : α) : Ascending (insert name value entries) := by
  induction entries with
  | nil => exact List.pairwise_singleton _ _
  | cons e entries ih =>
      obtain ⟨hd, tl⟩ := List.pairwise_cons.1 h
      rw [Entries.insert]
      split
      · rename_i hlt
        refine List.pairwise_cons.2 ⟨fun x hx => ?_, h⟩
        rcases List.mem_cons.1 hx with rfl | hx
        · exact hlt
        · exact String.lt_trans hlt (hd x hx)
      · rename_i hnlt
        split
        · rename_i heq
          exact List.pairwise_cons.2 ⟨fun x hx => heq ▸ hd x hx, tl⟩
        · rename_i hne
          refine List.pairwise_cons.2 ⟨fun x hx => ?_, ih tl⟩
          rcases mem_insert hx with rfl | hx
          · exact Std.lt_of_le_of_ne (String.not_lt.1 hnlt) (Ne.symm hne)
          · exact hd x hx

theorem Ascending.erase {α : Type} {entries : List (String × α)} (h : Ascending entries)
    (name : String) : Ascending (erase name entries) :=
  List.Pairwise.filter _ h

theorem Ascending.ofList {α : Type} (bindings : List (String × α)) :
    Ascending (ofList bindings) := by
  suffices ∀ entries, Ascending entries →
      Ascending (bindings.foldl (fun entries e => Entries.insert e.1 e.2 entries) entries) from
    this [] List.Pairwise.nil
  induction bindings with
  | nil => exact fun _ h => h
  | cons b bindings ih => exact fun entries h => ih _ (h.insert b.1 b.2)

theorem get?_insert {α : Type} (name other : String) (value : α)
    (entries : List (String × α)) :
    get? other (insert name value entries) = if other = name then some value else get? other entries := by
  induction entries with
  | nil => grind [insert, get?]
  | cons e entries ih => grind [insert, get?]

theorem get?_erase {α : Type} (name other : String) (entries : List (String × α)) :
    get? other (erase name entries) = if other = name then none else get? other entries := by
  induction entries with
  | nil => simp [erase, get?]
  | cons e entries ih => grind [erase, get?]

theorem mem_of_get? {α : Type} {name : String} {value : α} {entries : List (String × α)}
    (h : get? name entries = some value) : (name, value) ∈ entries := by
  induction entries with
  | nil => simp [get?] at h
  | cons e entries ih => grind [get?]

theorem Ascending.get?_of_mem {α : Type} {entries : List (String × α)} (h : Ascending entries)
    {e : String × α} (he : e ∈ entries) : get? e.1 entries = some e.2 := by
  induction entries with
  | nil => simp at he
  | cons x entries ih =>
      obtain ⟨hd, tl⟩ := List.pairwise_cons.1 h
      rcases List.mem_cons.1 he with rfl | he
      · simp [get?]
      · have hne : x.1 ≠ e.1 := fun heq => String.lt_irrefl _ (heq ▸ hd e he)
        simpa [get?, hne] using ih tl he

/-- Ascending entries are determined by what they bind each name to. -/
theorem Ascending.ext {α : Type} {xs ys : List (String × α)} (hx : Ascending xs)
    (hy : Ascending ys) (h : ∀ name, get? name xs = get? name ys) : xs = ys := by
  induction xs generalizing ys with
  | nil =>
      cases ys with
      | nil => rfl
      | cons y ys => simpa [get?] using h y.1
  | cons x xs ih =>
      cases ys with
      | nil => simpa [get?] using h x.1
      | cons y ys =>
          obtain ⟨hdx, tlx⟩ := List.pairwise_cons.1 hx
          obtain ⟨hdy, tly⟩ := List.pairwise_cons.1 hy
          have hxy : (x.1, x.2) ∈ y :: ys :=
            mem_of_get? ((h x.1).symm.trans (hx.get?_of_mem List.mem_cons_self))
          have hyx : (y.1, y.2) ∈ x :: xs :=
            mem_of_get? ((h y.1).trans (hy.get?_of_mem List.mem_cons_self))
          have heq : x = y := by
            rcases List.mem_cons.1 hxy with hxy | hxy
            · exact hxy
            · rcases List.mem_cons.1 hyx with hyx | hyx
              · exact hyx.symm
              · exact absurd (String.lt_trans (hdx _ hyx) (hdy _ hxy)) (String.lt_irrefl _)
          subst heq
          congr 1
          refine ih tlx tly fun name => ?_
          by_cases hn : x.1 = name
          · subst hn
            have none_of {zs : List (String × α)} (hz : ∀ z ∈ zs, x.1 < z.1) :
                get? x.1 zs = none := by
              cases hg : get? x.1 zs with
              | none => rfl
              | some v => exact absurd (hz _ (mem_of_get? hg)) (String.lt_irrefl _)
            rw [none_of hdx, none_of hdy]
          · simpa [get?, hn] using h name

end Entries

/-- A finite map from names to values. -/
structure Table (α : Type) where
  entries : List (String × α)
  ascending : Entries.Ascending entries
deriving DecidableEq

namespace Table

variable {α : Type}

def empty : Table α :=
  ⟨[], List.Pairwise.nil⟩

instance : EmptyCollection (Table α) := ⟨empty⟩
instance : Inhabited (Table α) := ⟨empty⟩

/-- What the table maps `name` to. -/
def get? (t : Table α) (name : String) : Option α :=
  Entries.get? name t.entries

def contains (t : Table α) (name : String) : Bool :=
  (t.get? name).isSome

/-- Maps `name` to `value`, replacing what it was mapped to. -/
def insert (t : Table α) (name : String) (value : α) : Table α :=
  ⟨Entries.insert name value t.entries, t.ascending.insert name value⟩

def erase (t : Table α) (name : String) : Table α :=
  ⟨Entries.erase name t.entries, t.ascending.erase name⟩

/-- Of two bindings of one name the later one counts. -/
def ofList (bindings : List (String × α)) : Table α :=
  ⟨Entries.ofList bindings, Entries.Ascending.ofList bindings⟩

def names (t : Table α) : List String :=
  t.entries.map (·.1)

def size (t : Table α) : Nat :=
  t.entries.length

def isEmpty (t : Table α) : Bool :=
  t.entries.isEmpty

/-- Equality of tables, with values compared by `r`. -/
def same (r : α → α → Bool) (s t : Table α) : Bool :=
  Entries.same r s.entries t.entries

@[simp] theorem get?_empty (name : String) : (∅ : Table α).get? name = none := rfl

@[simp] theorem get?_insert (t : Table α) (name other : String) (value : α) :
    (t.insert name value).get? other = if other = name then some value else t.get? other :=
  Entries.get?_insert name other value t.entries

@[simp] theorem get?_erase (t : Table α) (name other : String) :
    (t.erase name).get? other = if other = name then none else t.get? other :=
  Entries.get?_erase name other t.entries

/-- Tables that map every name alike are equal. -/
theorem ext_get? {s t : Table α} (h : ∀ name, s.get? name = t.get? name) : s = t := by
  obtain ⟨xs, hx⟩ := s
  obtain ⟨ys, hy⟩ := t
  obtain rfl : xs = ys := hx.ext hy h
  rfl

end Table

end EntityQuery
