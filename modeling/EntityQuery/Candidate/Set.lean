import EntityQuery.Candidate.Basic

/-!
# Candidate sets

A set of candidates remembers the order in which they were first put in.  Of candidates with one key it
keeps the first.
-/

namespace EntityQuery

structure CandidateSet where
  /-- The members, in the order in which they were put in. -/
  toList : List Candidate
  distinct : (toList.map Candidate.key).Nodup
deriving DecidableEq

namespace CandidateSet

def empty : CandidateSet :=
  ⟨[], List.Pairwise.nil⟩

instance : EmptyCollection CandidateSet := ⟨empty⟩
instance : Inhabited CandidateSet := ⟨empty⟩

def size (s : CandidateSet) : Nat :=
  s.toList.length

def isEmpty (s : CandidateSet) : Bool :=
  s.toList.isEmpty

/-- Whether a candidate with the key of `c` is in the set. -/
def contains (s : CandidateSet) (c : Candidate) : Bool :=
  c.key ∈ s.toList.map Candidate.key

/-- Puts `c` last, unless one of its key is there. -/
def insert (s : CandidateSet) (c : Candidate) : CandidateSet :=
  if h : c.key ∈ s.toList.map Candidate.key then s
  else ⟨s.toList ++ [c], by
    rw [List.map_append, List.nodup_append]
    refine ⟨s.distinct, by simp, fun k hk k' hk' heq => ?_⟩
    simp only [List.map_cons, List.map_nil, List.mem_singleton] at hk'
    exact h (hk' ▸ heq ▸ hk)⟩

/-- Puts `c` in; also whether it is new to the set. -/
def offer (s : CandidateSet) (c : Candidate) : Bool × CandidateSet :=
  (¬ s.contains c, s.insert c)

/-- Puts all of `cs` in, one after the other. -/
def extend (s : CandidateSet) (cs : List Candidate) : CandidateSet :=
  cs.foldl insert s

def ofList (cs : List Candidate) : CandidateSet :=
  extend ∅ cs

/-- The members of `s`, and then those of `t` that are not among them. -/
def union (s t : CandidateSet) : CandidateSet :=
  s.extend t.toList

def ofEntities (ids : List EntityId) : CandidateSet :=
  ofList (ids.map .entity)

/-- Equality of sets: equal members in the same order. -/
def same (s t : CandidateSet) : Bool :=
  s.size = t.size ∧ (s.toList.zip t.toList).all fun (a, b) => a.same b

theorem ext_toList {s t : CandidateSet} (h : s.toList = t.toList) : s = t := by
  obtain ⟨xs, hx⟩ := s
  obtain ⟨ys, hy⟩ := t
  obtain rfl : xs = ys := h
  rfl

@[simp] theorem toList_empty : (∅ : CandidateSet).toList = [] := rfl

theorem toList_insert (s : CandidateSet) (c : Candidate) :
    (s.insert c).toList = if s.contains c then s.toList else s.toList ++ [c] := by
  unfold insert contains
  split <;> simp_all

@[simp] theorem extend_nil (s : CandidateSet) : s.extend [] = s := rfl

@[simp] theorem extend_cons (s : CandidateSet) (c : Candidate) (cs : List Candidate) :
    s.extend (c :: cs) = (s.insert c).extend cs := rfl

theorem extend_append (s : CandidateSet) (cs ds : List Candidate) :
    s.extend (cs ++ ds) = (s.extend cs).extend ds :=
  List.foldl_append ..

end CandidateSet

end EntityQuery
