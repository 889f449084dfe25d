import EntityQuery.Proofs.Candidate.Members
import Mathlib.Data.List.Induction
import Mathlib.Data.List.Nodup
import Mathlib.Data.List.Perm.Subperm

/-!
# Unions of candidate sets

What is put into a set of candidates is put in once.  So it does not matter whether doubles are left out
before or after:

* `CandidateSet.ofList_union_ofList`: the union of two sets made of lists is the set made of both lists.
* `CandidateSet.union_assoc`, `CandidateSet.union_self`, `CandidateSet.empty_union`: unions form a monoid in
  which every set is idempotent, and that is so in the order of the members.
* `CandidateSet.union_perm`: the members of a union are the same either way, if candidates of one key are
  equal.
* `CandidateSet.ofList_flatMap_union`: what is made of each member of a union, put together, is the union
  of what is made of the members of both sets, if candidates of one key are equal.
* `CandidateSet.ofList_flatMap_ofList`: so it is of a set made of a list.
* `CandidateSet.toList_ofList`: such a set has the first of each of the doubles of the list, if candidates of
  one key are equal.
-/

namespace EntityQuery.CandidateSet

variable {s t : CandidateSet} {c d : Candidate} {cs ds : List Candidate}

/-! ### What is in already -/

theorem contains_iff : s.contains c ↔ ∃ d ∈ s.toList, d.key = c.key := by
  simp [contains]

/-- A candidate changes nothing, if one of its key is there. -/
theorem insert_of_contains (h : s.contains c) : s.insert c = s :=
  ext_toList (by rw [toList_insert, if_pos h])

theorem toList_insert_of_not_contains (h : ¬ s.contains c) : (s.insert c).toList = s.toList ++ [c] := by
  rw [toList_insert, if_neg h]

theorem contains_insert : (s.insert c).contains d ↔ s.contains d ∨ c.key = d.key := by
  by_cases h : s.contains c
  · rw [insert_of_contains h]
    refine ⟨.inl, fun hd => hd.elim id fun hkey => ?_⟩
    simpa only [contains, hkey] using h
  · simp [contains_iff, toList_insert_of_not_contains h, or_and_right, exists_or]

theorem contains_extend : (s.extend cs).contains d ↔ s.contains d ∨ ∃ c ∈ cs, c.key = d.key := by
  induction cs generalizing s with
  | nil          => simp
  | cons c cs ih => simp [ih, contains_insert, or_assoc]

theorem contains_extend_of_mem (h : c ∈ cs) : (s.extend cs).contains c :=
  contains_extend.2 (.inr ⟨c, h, rfl⟩)

theorem extend_of_contains (h : ∀ c ∈ cs, s.contains c) : s.extend cs = s := by
  induction cs with
  | nil          => rfl
  | cons c cs ih =>
      obtain ⟨hc, hcs⟩ := List.forall_mem_cons.1 h
      rw [extend_cons, insert_of_contains hc, ih hcs]

theorem toList_prefix_extend (s : CandidateSet) (cs : List Candidate) :
    s.toList <+: (s.extend cs).toList := by
  induction cs generalizing s with
  | nil          => exact List.prefix_refl _
  | cons c cs ih =>
      refine List.IsPrefix.trans ?_ (ih (s.insert c))
      rw [toList_insert]
      split
      · exact List.prefix_refl _
      · exact List.prefix_append _ _

/-! ### Doubles -/

/-- To leave out doubles of what is put in makes no difference. -/
theorem extend_toList_extend (s t : CandidateSet) (cs : List Candidate) :
    s.extend (t.extend cs).toList = (s.extend t.toList).extend cs := by
  induction cs generalizing t with
  | nil          => rfl
  | cons c cs ih =>
      rw [extend_cons, ih, extend_cons]
      by_cases h : t.contains c
      · obtain ⟨d, hd, hkey⟩ := contains_iff.1 h
        rw [insert_of_contains h, insert_of_contains (contains_extend.2 (.inr ⟨d, hd, hkey⟩))]
      · rw [toList_insert_of_not_contains h, extend_append, extend_cons, extend_nil]

theorem ofList_union_ofList (cs ds : List Candidate) :
    (ofList cs).union (ofList ds) = ofList (cs ++ ds) := by
  rw [union, ofList, ofList, extend_toList_extend, toList_empty, extend_nil, ofList, extend_append]

/-! ### The algebra of unions -/

theorem contains_of_mem (h : c ∈ s.toList) : s.contains c :=
  contains_iff.2 ⟨c, h, rfl⟩

/-- What has no doubles is put in as it is. -/
theorem toList_extend_of_nodup (h : ((s.toList ++ cs).map Candidate.key).Nodup) :
    (s.extend cs).toList = s.toList ++ cs := by
  induction cs generalizing s with
  | nil          => simp
  | cons c cs ih =>
      have hc : ¬ s.contains c := by
        rw [List.map_append, List.nodup_append] at h
        intro hcontains
        obtain ⟨d, hd, hkey⟩ := contains_iff.1 hcontains
        exact h.2.2 d.key (List.mem_map_of_mem hd) c.key (by simp) hkey
      have hinsert := toList_insert_of_not_contains hc
      rw [extend_cons, ih (by simpa [hinsert] using h), hinsert, List.append_assoc, List.singleton_append]

@[simp] theorem union_empty (s : CandidateSet) : s.union ∅ = s := rfl

@[simp] theorem empty_union (s : CandidateSet) : (∅ : CandidateSet).union s = s :=
  ext_toList (toList_extend_of_nodup s.distinct)

@[simp] theorem union_self (s : CandidateSet) : s.union s = s :=
  extend_of_contains fun _ => contains_of_mem

theorem union_assoc (s t u : CandidateSet) : (s.union t).union u = s.union (t.union u) :=
  (extend_toList_extend s t u.toList).symm

/-! ### Lists of entities -/

theorem ofEntities_union_ofEntities (ids ids' : List EntityId) :
    (ofEntities ids).union (ofEntities ids') = ofEntities (ids ++ ids') := by
  rw [ofEntities, ofEntities, ofList_union_ofList, ofEntities, List.map_append]

theorem foldl_union_ofEntities {α : Type} (f : α → List EntityId) (as : List α) (ids : List EntityId) :
    (as.map fun a => ofEntities (f a)).foldl union (ofEntities ids) = ofEntities (ids ++ as.flatMap f) := by
  induction as generalizing ids with
  | nil          => simp
  | cons a as ih => simp [ofEntities_union_ofEntities, ih]

/-- What is in already may be left out. -/
theorem extend_map_filter {f : EntityId → Candidate} {id : EntityId} (h : s.contains (f id))
    (ids : List EntityId) : s.extend ((ids.filter fun id' => !id' == id).map f) = s.extend (ids.map f) := by
  induction ids generalizing s with
  | nil             => rfl
  | cons id' ids ih =>
      by_cases hid : id' = id
      · simp [hid, ih h, insert_of_contains h]
      · simp [hid, ih (contains_insert.2 (.inl h))]

theorem extend_map_eraseDups (f : EntityId → Candidate) (s : CandidateSet) (ids : List EntityId) :
    s.extend (ids.eraseDups.map f) = s.extend (ids.map f) := by
  induction hn : ids.length using Nat.strongRecOn generalizing ids s with
  | ind n ih =>
      cases ids with
      | nil         => rfl
      | cons id ids =>
          have hlength : (ids.filter fun id' => !id' == id).length < n := by
            rw [← hn]
            exact Nat.lt_succ_of_le (List.length_filter_le _ _)
          have hcontains : (s.insert (f id)).contains (f id) := contains_insert.2 (.inr rfl)
          rw [List.eraseDups_cons, List.map_cons, extend_cons, ih _ hlength _ _ rfl,
            extend_map_filter hcontains, List.map_cons, extend_cons]

theorem ofEntities_eraseDups (ids : List EntityId) : ofEntities ids.eraseDups = ofEntities ids :=
  extend_map_eraseDups .entity ∅ ids

/-! ### What is made of the members -/

/-- Candidates of one key are equal. -/
def Consistent (cs : List Candidate) : Prop :=
  ∀ c ∈ cs, ∀ d ∈ cs, c.key = d.key → c = d

theorem Consistent.subset (h : Consistent ds) (hsubset : cs ⊆ ds) : Consistent cs :=
  fun c hc d hd => h c (hsubset hc) d (hsubset hd)

theorem Consistent.mem_of_contains (h : Consistent (s.toList ++ cs)) (hc : c ∈ cs)
    (hcontains : s.contains c) : c ∈ s.toList := by
  obtain ⟨d, hd, hkey⟩ := contains_iff.1 hcontains
  rwa [← h d (List.mem_append_left cs hd) c (List.mem_append_right _ hc) hkey]

theorem Consistent.insert (h : Consistent (s.toList ++ c :: cs)) :
    Consistent ((s.insert c).toList ++ cs) := by
  refine h.subset fun d hd => ?_
  rcases List.mem_append.1 hd with hd | hd
  · rcases mem_of_mem_insert hd with hd | rfl
    · exact List.mem_append_left _ hd
    · exact List.mem_append_right _ List.mem_cons_self
  · exact List.mem_append_right _ (List.mem_cons_of_mem _ hd)

/-- The members that a set is extended by add what is made of them; those it has already add nothing. -/
theorem extend_flatMap_extend (made : CandidateSet) (f : Candidate → List Candidate)
    (h : Consistent (s.toList ++ cs)) :
    made.extend ((s.extend cs).toList.flatMap f) =
      (made.extend (s.toList.flatMap f)).extend (cs.flatMap f) := by
  induction cs generalizing s with
  | nil          => rfl
  | cons c cs ih =>
      rw [extend_cons, ih h.insert, List.flatMap_cons, extend_append]
      by_cases hc : s.contains c
      · have hmem := h.mem_of_contains List.mem_cons_self hc
        have hadds : (made.extend (s.toList.flatMap f)).extend (f c) =
            made.extend (s.toList.flatMap f) :=
          extend_of_contains fun d hd => contains_extend_of_mem (List.mem_flatMap.2 ⟨c, hmem, hd⟩)
        rw [insert_of_contains hc, hadds]
      · rw [toList_insert_of_not_contains hc, List.flatMap_append, extend_append,
          List.flatMap_singleton]

/-- **What is made of the members of a union, put together, is the union of what is made of those of
both sets.** -/
theorem ofList_flatMap_union (f : Candidate → List Candidate)
    (h : Consistent (s.toList ++ t.toList)) :
    ofList ((s.union t).toList.flatMap f) =
      (ofList (s.toList.flatMap f)).union (ofList (t.toList.flatMap f)) := by
  rw [ofList_union_ofList, union, ofList, extend_flatMap_extend ∅ f h, ofList, extend_append]

/-- Doubles left out of what members are made of add nothing. -/
theorem ofList_flatMap_ofList (f : Candidate → List Candidate) (h : Consistent cs) :
    ofList ((ofList cs).toList.flatMap f) = ofList (cs.flatMap f) :=
  extend_flatMap_extend (s := ∅) ∅ f h

/-- A set made of a list has the first of each of its doubles. -/
theorem toList_ofList (h : Consistent cs) : (ofList cs).toList = cs.eraseDups := by
  induction cs using List.reverseRecOn with
  | nil                      => rfl
  | append_singleton cs c ih =>
      have hcontains : (ofList cs).contains c ↔ c ∈ cs := by
        rw [ofList, contains_extend]
        constructor
        · rintro (hempty | ⟨d, hd, hkey⟩)
          · cases hempty
          · rwa [← h d (List.mem_append_left _ hd) c (List.mem_append_right _ List.mem_cons_self) hkey]
        · exact fun hc => .inr ⟨c, hc, rfl⟩
      have hinsert : ofList (cs ++ [c]) = (ofList cs).insert c := extend_append ..
      rw [hinsert, toList_insert, ih (h.subset (List.subset_append_left ..)), List.eraseDups_append]
      by_cases hc : c ∈ cs
      · simp [List.removeAll, hcontains, hc]
      · simp [List.removeAll, List.eraseDups_cons, hcontains, hc]

theorem mem_ofList_iff (h : Consistent cs) : c ∈ (ofList cs).toList ↔ c ∈ cs := by
  rw [toList_ofList h, List.mem_eraseDups]

/-- What is made of the members, with the first of each of its doubles. -/
theorem toList_ofList_flatMap {f : Candidate → List Candidate} (h : Consistent cs)
    (hf : Consistent (cs.flatMap f)) :
    (ofList (cs.flatMap f)).toList = ((ofList cs).toList.flatMap f).eraseDups := by
  have hsubset : (ofList cs).toList.flatMap f ⊆ cs.flatMap f := by
    intro d hd
    obtain ⟨c, hc, hd⟩ := List.mem_flatMap.1 hd
    exact List.mem_flatMap.2 ⟨c, mem_of_mem_ofList hc, hd⟩
  rw [← ofList_flatMap_ofList f h, toList_ofList (hf.subset hsubset)]

theorem mem_union_iff (h : Consistent (s.toList ++ t.toList)) :
    c ∈ (s.union t).toList ↔ c ∈ s.toList ∨ c ∈ t.toList := by
  refine ⟨mem_of_mem_union, ?_⟩
  rintro (hc | hc)
  · exact (toList_prefix_extend s t.toList).subset hc
  · obtain ⟨d, hd, hkey⟩ := contains_iff.1 (contains_extend.2 (.inr ⟨c, hc, rfl⟩) :
      (s.union t).contains c)
    have hd' : d ∈ s.toList ++ t.toList := List.mem_append.2 (mem_of_mem_union hd)
    rwa [← h d hd' c (List.mem_append_right _ hc) hkey]

theorem Consistent.symm (h : Consistent (cs ++ ds)) : Consistent (ds ++ cs) :=
  h.subset List.perm_append_comm.subset

theorem nodup_toList (s : CandidateSet) : s.toList.Nodup :=
  List.Nodup.of_map _ s.distinct

/-- Unions either way have the same members. -/
theorem union_perm (h : Consistent (s.toList ++ t.toList)) :
    (s.union t).toList.Perm (t.union s).toList := by
  refine (List.perm_ext_iff_of_nodup (nodup_toList _) (nodup_toList _)).2 fun c => ?_
  rw [mem_union_iff h, mem_union_iff h.symm, or_comm]

/-! ### Sizes -/

theorem size_extend_le (s : CandidateSet) (cs : List Candidate) :
    (s.extend cs).size ≤ s.size + cs.length := by
  induction cs generalizing s with
  | nil          => exact Nat.le_refl _
  | cons c cs ih =>
      have hinsert : (s.insert c).size ≤ s.size + 1 := by
        rw [size, toList_insert]
        split
        · exact Nat.le_succ _
        · rw [List.length_append]
          exact Nat.le_refl _
      calc (s.extend (c :: cs)).size
        _ ≤ (s.insert c).size + cs.length     := ih (s.insert c)
        _ ≤ s.size + 1 + cs.length            := Nat.add_le_add_right hinsert _
        _ = s.size + (c :: cs).length         := by rw [List.length_cons]; omega

theorem size_ofList_le (cs : List Candidate) : (ofList cs).size ≤ cs.length := by
  simpa [size, ofList] using size_extend_le ∅ cs

theorem size_le_union_left (s t : CandidateSet) : s.size ≤ (s.union t).size :=
  (toList_prefix_extend s t.toList).length_le

/-- A set that has a candidate of every key of another is no smaller. -/
theorem size_le_of_contains (h : ∀ c ∈ t.toList, s.contains c) : t.size ≤ s.size := by
  have hkeys : t.toList.map Candidate.key ⊆ s.toList.map Candidate.key := by
    intro k hk
    obtain ⟨c, hc, rfl⟩ := List.mem_map.1 hk
    obtain ⟨d, hd, hkey⟩ := contains_iff.1 (h c hc)
    exact List.mem_map.2 ⟨d, hd, hkey⟩
  simpa [size] using (List.subperm_of_subset t.distinct hkeys).length_le

theorem size_le_union_right (s t : CandidateSet) : t.size ≤ (s.union t).size :=
  size_le_of_contains fun _ hc => contains_extend_of_mem hc

theorem size_le_foldl_union (s : CandidateSet) (ts : List CandidateSet) :
    s.size ≤ (ts.foldl union s).size := by
  induction ts generalizing s with
  | nil          => exact Nat.le_refl _
  | cons t ts ih => exact Nat.le_trans (size_le_union_left s t) (ih (s.union t))

theorem size_ofEntities_le_of_subset {ids ids' : List EntityId} (h : ids ⊆ ids') :
    (ofEntities ids).size ≤ (ofEntities ids').size :=
  size_le_of_contains fun _ hc =>
    contains_extend_of_mem (List.map_subset _ h (mem_of_mem_ofList hc))

end EntityQuery.CandidateSet
