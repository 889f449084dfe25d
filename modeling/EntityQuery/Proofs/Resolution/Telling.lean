import EntityQuery.Proofs.Attire.Look
import EntityQuery.Resolution.Basic
import Mathlib.Tactic.Choose

/-!
# What a part of a run tells

A part of a run goes on from what was learnt, remarked and noted so far, and leaves that changed.  What
it tells does not depend on it: `Resolving.Tells x r t` says that from every run `x` has the result `r`
and adds the entries `t` to the trace.  Where the entries are of no interest, `x` comes to `r`
(`Resolving.ComesTo`).

* `Resolving.Tells.bind`, `Resolving.ComesTo.bind`: of parts one after the other, the results follow
  one another, and so do the entries, up to the first error.
* `Resolving.gather_comesTo`: the contributions of a set come to what each of them comes to.
-/

namespace EntityQuery

open Attire (Look)

namespace Resolving

variable {α β ρ : Type}

/-- How a part of a run ends. -/
def result (x : Resolving α) (run : Run) : Except QueryError α :=
  (x.run.run run).1

/-- The run behind a part of it. -/
def after (x : Resolving α) (run : Run) : Run :=
  (x.run.run run).2

/-- From every run, `x` has the result `r` and adds `t` to the trace. -/
def Tells (x : Resolving α) (r : Except QueryError α) (t : Trace) : Prop :=
  ∀ run, x.result run = r ∧ (x.after run).trace = run.trace ++ t

/-- From every run, `x` has the result `r`. -/
def ComesTo (x : Resolving α) (r : Except QueryError α) : Prop :=
  ∃ t, x.Tells r t

/-! ### Parts and their results -/

theorem Tells.pure (a : α) : Tells (pure a) (.ok a) [] :=
  fun run => ⟨rfl, (List.append_nil run.trace).symm⟩

theorem Tells.throw (e : QueryError) : Tells (throw e : Resolving α) (.error e) [] :=
  fun run => ⟨rfl, (List.append_nil run.trace).symm⟩

/-- What follows on a result tells on from there. -/
theorem Tells.bind_ok {x : Resolving α} {f : α → Resolving β} {a : α} {t u : Trace}
    {r : Except QueryError β} (hx : x.Tells (.ok a) t) (hf : (f a).Tells r u) :
    Tells (x >>= f) r (t ++ u) := by
  intro run
  obtain ⟨hresult, htrace⟩ := hx run
  have hrun : (x >>= f).run.run run = (ExceptT.bindCont f (x.result run)).run (x.after run) := rfl
  rw [result, after, hrun, hresult, ← List.append_assoc, ← htrace]
  exact hf (x.after run)

/-- What follows on an error is left out, and tells nothing. -/
theorem Tells.bind_error {x : Resolving α} {e : QueryError} {t : Trace}
    (hx : x.Tells (.error e) t) (f : α → Resolving β) : Tells (x >>= f) (.error e) t := by
  intro run
  obtain ⟨hresult, htrace⟩ := hx run
  have hrun : (x >>= f).run.run run = (ExceptT.bindCont f (x.result run)).run (x.after run) := rfl
  rw [result, after, hrun, hresult]
  exact ⟨rfl, htrace⟩

/-- What has a result in the end, has one at the first part. -/
theorem exists_of_bind_result_eq_ok {x : Resolving α} {f : α → Resolving β} {run : Run} {b : β}
    (h : (x >>= f).result run = .ok b) :
    ∃ a, x.result run = .ok a ∧ (f a).result (x.after run) = .ok b := by
  have hrun : (x >>= f).run.run run = (ExceptT.bindCont f (x.result run)).run (x.after run) := rfl
  rw [result, hrun] at h
  cases hx : x.result run with
  | ok a    =>
      rw [hx] at h
      exact ⟨a, rfl, h⟩
  | error e =>
      rw [hx] at h
      cases h

/-- The results one after the other, and the entries of what comes before first. -/
theorem Tells.bind {x : Resolving α} {f : α → Resolving β} {r : Except QueryError α} {t : Trace}
    {g : α → Except QueryError β} {u : α → Trace} (hx : x.Tells r t)
    (hf : ∀ a, (f a).Tells (g a) (u a)) :
    Tells (x >>= f) (r >>= g) (t ++ r.toOption.elim [] u) := by
  cases r with
  | ok a    => exact hx.bind_ok (hf a)
  | error e =>
      show Tells (x >>= f) (.error e) (t ++ [])
      rw [List.append_nil]
      exact hx.bind_error f

theorem look_tells {x : Look α} {a : α} (h : x.Shows a) : (look x).Tells (.ok a) [] :=
  fun run => ⟨congrArg Except.ok (h run.toLedger), (List.append_nil run.trace).symm⟩

theorem read_tells (reading : Except ReadFault α) :
    (read reading).Tells (reading.mapError .unread) [] := by
  cases reading with
  | ok a        => exact .pure a
  | error fault => exact .throw _

theorem remark_tells (events : Log) : (remark events).Tells (.ok ()) [] :=
  fun run => ⟨rfl, (List.append_nil run.trace).symm⟩

theorem note_tells (entry : Trace.Entry) : (note entry).Tells (.ok ()) [entry] :=
  fun _ => ⟨rfl, rfl⟩

/-! ### What parts come to -/

theorem ComesTo.result_eq {x : Resolving α} {r : Except QueryError α} (h : x.ComesTo r)
    (run : Run) : x.result run = r := by
  obtain ⟨t, ht⟩ := h
  exact (ht run).1

theorem ComesTo.pure (a : α) : ComesTo (pure a) (.ok a) :=
  ⟨[], .pure a⟩

theorem ComesTo.throw (e : QueryError) : ComesTo (throw e : Resolving α) (.error e) :=
  ⟨[], .throw e⟩

theorem ComesTo.bind {x : Resolving α} {f : α → Resolving β} {r : Except QueryError α}
    {g : α → Except QueryError β} (hx : x.ComesTo r) (hf : ∀ a, (f a).ComesTo (g a)) :
    ComesTo (x >>= f) (r >>= g) := by
  obtain ⟨t, ht⟩ := hx
  choose u hu using hf
  exact ⟨_, ht.bind hu⟩

theorem ComesTo.map {x : Resolving α} {r : Except QueryError α} (hx : x.ComesTo r) (f : α → β) :
    ComesTo (f <$> x) (r.map f) := by
  have h := hx.bind fun a => .pure (f a)
  cases r <;> exact h

theorem ComesTo.mapM {f : α → Resolving β} {g : α → Except QueryError β}
    (h : ∀ a, (f a).ComesTo (g a)) : ∀ as : List α, ComesTo (as.mapM f) (as.mapM g)
  | []      => .pure []
  | a :: as => by
      rw [List.mapM_cons, List.mapM_cons]
      exact (h a).bind fun _ => (ComesTo.mapM h as).bind fun _ => .pure _

/-- What a look shows is what it comes to within a run. -/
theorem look_comesTo {x : Look α} {a : α} (h : x.Shows a) : (look x).ComesTo (.ok a) :=
  ⟨[], look_tells h⟩

theorem read_comesTo (reading : Except ReadFault α) :
    (read reading).ComesTo (reading.mapError .unread) :=
  ⟨[], read_tells reading⟩

theorem remark_comesTo (events : Log) : (remark events).ComesTo (.ok ()) :=
  ⟨[], remark_tells events⟩

theorem gather_comesTo {contribute : Candidate → Resolving (Contribution ρ)}
    {g : Candidate → Except QueryError (Contribution ρ)} (h : ∀ c, (contribute c).ComesTo (g c))
    (parent : CandidateSet) :
    (gather contribute parent).ComesTo (do
      let cs ← parent.toList.mapM g
      return (.ofList (cs.flatMap (·.found)), cs.map (·.report))) :=
  (ComesTo.mapM h parent.toList).bind fun _ => .pure _

end Resolving

end EntityQuery
