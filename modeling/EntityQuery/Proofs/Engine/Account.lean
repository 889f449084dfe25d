import EntityQuery.Engine
import EntityQuery.Proofs.Resolution.Telling
import EntityQuery.Proofs.Support.Attempt

/-!
# What an engine reports

A report is made of what the resolution of the query tells (`Engine.ask_account`): the answer of its
result, and the entries of its trace.  What was learnt before has no part in it, and to make an answer
of a set can only fail for the shape of the query (`Answer.isStructural_of_ofSet_eq_error`).
-/

namespace EntityQuery

/-- What a report says of a query and its resolution: the outcome and the trace. -/
structure Account where
  outcome : Except QueryError Answer
  trace : Trace

def Report.account (r : Report) : Account :=
  { outcome := r.outcome, trace := r.trace }

/-- The report on a query is made of what its resolution tells. -/
theorem Engine.ask_account (e : Engine) {q : Query} {actor : EntityId} {scene : Scene} {traced : Bool}
    {r : Except QueryError CandidateSet} {t : Trace}
    (h : ((e.context actor scene traced).resolve q 0).Tells r t) :
    (e.ask q actor scene traced).1.account = { outcome := r.bind Answer.ofSet, trace := t } := by
  obtain ⟨hresult, htrace⟩ := h e.begin
  rw [← hresult, ← List.nil_append t]
  exact congrArg (Account.mk _) htrace

/-- To make an answer of a set only fails for a descriptor in it. -/
theorem Answer.exists_of_ofSet_eq_error {s : CandidateSet} {e : QueryError} (h : ofSet s = .error e) :
    ∃ d : Descriptor, .descriptor d ∈ s.toList ∧ e = .unresolvedDescriptor d.owner d.view := by
  obtain ⟨c, hmem, hc⟩ := Attempt.exists_of_mapM_eq_error (Attempt.map_eq_error.1 h)
  cases c with
  | entity | value => cases hc
  | descriptor d   => exact ⟨d, hmem, (Except.error.inj hc).symm⟩

theorem Answer.isStructural_of_ofSet_eq_error {s : CandidateSet} {e : QueryError}
    (h : ofSet s = .error e) : e.isStructural := by
  obtain ⟨d, -, rfl⟩ := exists_of_ofSet_eq_error h
  rfl

/-- An answer has a member for each candidate. -/
theorem Answer.size_of_ofSet {s : CandidateSet} {a : Answer} (h : ofSet s = .ok a) : a.size = s.size := by
  obtain ⟨members, hmembers, rfl⟩ := Attempt.map_eq_ok.1 h
  obtain ⟨-, rfl⟩ := (Attempt.mapM_eq_ok_iff (.entity "")).1 hmembers
  exact List.length_map _

/-- The answers that are made of the same candidates have the same members. -/
theorem Answer.ofSet_perm {s t : CandidateSet} {a : Answer} (h : s.toList.Perm t.toList)
    (ha : ofSet s = .ok a) : ∃ a', ofSet t = .ok a' ∧ a.members.Perm a'.members := by
  obtain ⟨members, hmembers, rfl⟩ := Attempt.map_eq_ok.1 ha
  obtain ⟨members', hmembers', hperm⟩ := Attempt.mapM_perm (.entity "") h hmembers
  exact ⟨⟨members'⟩, Attempt.map_eq_ok.2 ⟨members', hmembers', rfl⟩, hperm⟩

end EntityQuery
