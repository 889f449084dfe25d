import EntityQuery.Candidate.Set

/-!
# Members of candidate sets

Whatever is put into a set, its members are among what was there and what was put in.
-/

namespace EntityQuery.CandidateSet

variable {s t : CandidateSet} {c : Candidate} {cs : List Candidate}

theorem mem_of_mem_insert {d : Candidate} (h : d ∈ (s.insert c).toList) : d ∈ s.toList ∨ d = c := by
  rw [toList_insert] at h
  split at h
  · exact .inl h
  · rcases List.mem_append.1 h with h | h
    · exact .inl h
    · exact .inr (List.mem_singleton.1 h)

theorem mem_of_mem_extend (h : c ∈ (s.extend cs).toList) : c ∈ s.toList ∨ c ∈ cs := by
  induction cs generalizing s with
  | nil => exact .inl h
  | cons d cs ih =>
      rw [extend_cons] at h
      rcases ih h with h | h
      · rcases mem_of_mem_insert h with h | rfl
        · exact .inl h
        · exact .inr List.mem_cons_self
      · exact .inr (List.mem_cons_of_mem d h)

theorem mem_of_mem_ofList (h : c ∈ (ofList cs).toList) : c ∈ cs := by
  rcases mem_of_mem_extend h with h | h
  · cases h
  · exact h

theorem mem_of_mem_union (h : c ∈ (s.union t).toList) : c ∈ s.toList ∨ c ∈ t.toList :=
  mem_of_mem_extend h

end EntityQuery.CandidateSet
