import EntityQuery.Proofs.Engine.Account
import EntityQuery.Proofs.Predicate.Evaluation
import EntityQuery.Proofs.Resolution.Comparison
import EntityQuery.Proofs.Resolution.Outcome
import EntityQuery.World.Store

/-!
# Strict and lenient filters

A lenient filter warns of a predicate that fails, and goes on; a strict one ends the query there.  Up to
the first warning both go the same way:

* `Comparison.stopping`: the comparison that says so, of parts of runs.
* `Asking.alike_strictly`, `Context.between_strictly`: it holds between a lenient resolution and the
  strict one.
* `Engine.strict_stops_at_first_warning`: so a strict engine reports what a lenient one does, or ends in
  the failure that the first warning tells of, with the entries before that.
-/

namespace EntityQuery

open Attire (ScoreTable)

/-- The error is a predicate that failed. -/
def QueryError.IsFilterFailed : QueryError → Prop
  | filterFailed _ _ => True
  | _                => False

theorem QueryError.not_isFilterFailed_of_isStructural {e : QueryError} (h : e.isStructural) :
    ¬ e.IsFilterFailed := by
  cases e with
  | filterFailed _ _ => cases h
  | _                => exact id

namespace Trace

/-- No entry warns. -/
def Calm (t : Trace) : Prop :=
  ∀ entry ∈ t, entry.level ≠ .warn

/-- The entry warns that a predicate failed for a candidate. -/
structure Entry.WarnsOf (entry : Entry) (candidate : String) (source : PredicateError) : Prop where
  level : entry.level = .warn
  candidate : entry.fields.get? "candidate" = some (.str candidate)
  error : entry.fields.get? "error" = some (.str source.message)

theorem Entry.failure_warnsOf (maker : String) (c : Candidate) (e : PredicateError) :
    (Entry.failure maker c e).WarnsOf c.text e where
  level := rfl
  candidate := by simp [failure, Table.ofList, Table.get?, Entries.ofList, Entries.get?_insert]
  error := by simp [failure, Table.ofList, Table.get?, Entries.ofList, Entries.get?_insert]

theorem calm_nil : Calm [] :=
  fun _ h => nomatch h

theorem Calm.append {t u : Trace} (ht : t.Calm) (hu : u.Calm) : Calm (t ++ u) :=
  fun entry h => (List.mem_append.1 h).elim (ht entry) (hu entry)

end Trace

/-- The result is no predicate that failed. -/
def NoFilterFailed {α : Type} (r : Except QueryError α) : Prop :=
  ∀ e, r = .error e → ¬ e.IsFilterFailed

theorem noFilterFailed_error {α : Type} {e : QueryError} (he : ¬ e.IsFilterFailed) :
    NoFilterFailed (.error e : Except QueryError α) := by
  intro e' he'
  cases he'
  exact he

/-- An answer may be refused for its shape, which is no filter that failed. -/
theorem NoFilterFailed.answer {r : Except QueryError CandidateSet} (hr : NoFilterFailed r) :
    NoFilterFailed (r.bind Answer.ofSet) := by
  intro e he
  rcases Attempt.bind_eq_error.1 he with he | ⟨s, -, hs⟩
  · exact hr e he
  · exact QueryError.not_isFilterFailed_of_isStructural (Answer.isStructural_of_ofSet_eq_error hs)

namespace Comparison

variable {α : Type}

/-- `x` never ends in a predicate that failed.  `y` tells what `x` does, if `x` warns of nothing; else it
ends in the failure that the first warning tells of, with the entries before that. -/
inductive Stopping (x y : Resolving α) : Prop where
  | calm {r : Except QueryError α} {t : Trace} (hx : x.Tells r t) (hr : NoFilterFailed r)
      (ht : t.Calm) (hy : y.Tells r t)
  | stopped {r : Except QueryError α} {before behind : Trace} {entry : Trace.Entry}
      {candidate : String} {source : PredicateError} (hx : x.Tells r (before ++ entry :: behind))
      (hr : NoFilterFailed r) (hbefore : before.Calm) (hentry : entry.WarnsOf candidate source)
      (hy : y.Tells (.error (.filterFailed candidate source)) before)

/-- The comparison of a lenient part with a strict one. -/
def stopping : Comparison where
  Holds := Stopping
  silent h := .calm h nofun Trace.calm_nil h
  refusal h :=
    .calm (.throw _) (noFilterFailed_error (QueryError.not_isFilterFailed_of_isStructural h))
      Trace.calm_nil (.throw _)
  bind := by
    rintro α β x y f g hxy hfg
    cases hxy with
    | @calm r t hx hr ht hy =>
        cases r with
        | error e =>
            exact .calm (hx.bind_error f) (noFilterFailed_error (hr e rfl)) ht (hy.bind_error g)
        | ok a =>
            cases hfg a with
            | calm hf hs hu hg =>
                exact .calm (hx.bind_ok hf) hs (ht.append hu) (hy.bind_ok hg)
            | stopped hf hs hbefore hentry hg =>
                have hfirst := hx.bind_ok hf
                rw [← List.append_assoc] at hfirst
                exact .stopped hfirst hs (ht.append hbefore) hentry (hy.bind_ok hg)
    | @stopped r before behind entry candidate source hx hr hbefore hentry hy =>
        -- Whatever the lenient part goes on to do, its first warning stays.
        cases r with
        | error e =>
            exact .stopped (hx.bind_error f) (noFilterFailed_error (hr e rfl)) hbefore hentry
              (hy.bind_error g)
        | ok a =>
            have hbind : ∃ s u, (f a).Tells s u ∧ NoFilterFailed s := by
              cases hfg a with
              | calm hf hs _ _      => exact ⟨_, _, hf, hs⟩
              | stopped hf hs _ _ _ => exact ⟨_, _, hf, hs⟩
            obtain ⟨s, u, hf, hs⟩ := hbind
            have hfirst := hx.bind_ok hf
            rw [List.append_assoc, List.cons_append] at hfirst
            exact .stopped hfirst hs hbefore hentry (hy.bind_error g)

end Comparison

namespace Asking

/-- What holds throughout, but with strict filters. -/
def strictly (a : Asking) : Asking :=
  { a with settings := { a.settings with strictFilters := true } }

variable (a : Asking)

theorem read_stopping {α : Type} (reading : Except ReadFault α) :
    Comparison.stopping.Holds (Resolving.read reading) (Resolving.read reading) := by
  have htells := Resolving.read_tells reading
  refine .calm htells (fun e he => ?_) Trace.calm_nil htells
  obtain ⟨fault, -, rfl⟩ := Attempt.mapError_eq_error.1 he
  exact id

theorem keep_stopping (hlenient : a.settings.strictFilters = false) (htraced : a.traced = true)
    (predicate : Json) (maker : String) (c : Candidate) :
    Comparison.stopping.Holds (a.keep predicate maker c) (a.strictly.keep predicate maker c) := by
  cases a.meets predicate c with
  | descriptor d hc =>
      subst hc
      exact .calm (a.keep_tells_of_descriptor d) (noFilterFailed_error id) Trace.calm_nil
        (a.strictly.keep_tells_of_descriptor d)
  | told hc htest =>
      exact .calm (a.keep_tells_of_ok hc htest) nofun Trace.calm_nil
        (a.strictly.keep_tells_of_ok hc htest)
  | unread hc htest =>
      exact .calm (a.keep_tells_of_unread hc htest) (noFilterFailed_error id) Trace.calm_nil
        (a.strictly.keep_tells_of_unread hc htest)
  | @failed e hc htest he =>
      -- Here the two part: the one warns, the other ends the query.
      have hkept : (a.keep predicate maker c).Tells (.ok ⟨[], true⟩)
          (if a.traced then [.failure maker c e] else []) :=
        a.keep_tells_of_lenient hc hlenient htest he
      rw [if_pos htraced, ← List.nil_append [_]] at hkept
      exact .stopped hkept nofun Trace.calm_nil (Trace.Entry.failure_warnsOf maker c e)
        (a.strictly.keep_tells_of_strict hc rfl htest he)

theorem note_stopping (entry : Trace.Entry) (hentry : entry.level = .info) :
    Comparison.stopping.Holds (a.note entry) (a.strictly.note entry) := by
  refine .calm (a.note_tells entry) nofun (fun entry' hmem => ?_) (a.strictly.note_tells entry)
  split at hmem
  · rw [List.mem_singleton.1 hmem, hentry]
    decide
  · cases hmem

theorem alike_strictly (hlenient : a.settings.strictFilters = false) (htraced : a.traced = true) :
    Comparison.stopping.Alike a a.strictly where
  actor := rfl
  location := rfl
  tieBreak := rfl
  component _ _ := read_stopping _
  holders _ := read_stopping _
  outfit _ := Comparison.stopping.bind (Comparison.stopping.remark _) fun _ => read_stopping _
  keep predicate := a.keep_stopping hlenient htraced predicate Resolver.filter.name
  note := a.note_stopping

end Asking

namespace Context

/-- What holds throughout a resolution, but with strict filters. -/
def strictly (c : Context) : Context :=
  { c with toAsking := c.toAsking.strictly }

theorem between_strictly (c : Context) (hlenient : c.settings.strictFilters = false)
    (htraced : c.traced = true) : Comparison.stopping.Between c c.strictly where
  toAlike := c.alike_strictly hlenient htraced
  router := rfl
  depth := Comparison.stopping.boundDepth c
  size := Comparison.stopping.boundSize c

end Context

/-! ### First warnings -/

namespace Trace

variable {t before behind : Trace} {entry : Entry}

/-- The first entry that warns. -/
def warning? (t : Trace) : Option Entry :=
  t.find? (·.level = .warn)

/-- The entries before the first one that warns. -/
def untilWarning (t : Trace) : Trace :=
  t.takeWhile (·.level ≠ .warn)

theorem Calm.warning?_eq_none (h : t.Calm) : t.warning? = none :=
  List.find?_eq_none.2 fun entry hmem => by simpa using h entry hmem

theorem Calm.warning?_append (h : before.Calm) (hentry : entry.level = .warn) :
    warning? (before ++ entry :: behind) = some entry := by
  have hbefore : before.find? (·.level = .warn) = none := h.warning?_eq_none
  rw [warning?, List.find?_append, hbefore, List.find?_cons_of_pos (by simpa using hentry)]
  rfl

theorem Calm.untilWarning_append (h : before.Calm) (hentry : entry.level = .warn) :
    untilWarning (before ++ entry :: behind) = before := by
  rw [untilWarning, List.takeWhile_append_of_pos fun entry hmem => by simpa using h entry hmem,
    List.takeWhile_cons_of_neg (by simpa using hentry), List.append_nil]

end Trace

/-- **Strict filters differ from lenient ones at the first warning only.**  Of two engines whose settings
differ in the strictness of filters, whatever their router is and their score tables are, and for every
query that is traced:

* the lenient one never reports a filter that failed;
* where it warns of nothing, the strict one reports the same;
* where it warns, the strict one reports a filter that failed, for the candidate and with the error that
  the first warning names, and the entries before that warning. -/
theorem Engine.strict_stops_at_first_warning (settings : Settings) (router : Router)
    (scores scores' : ScoreTable) (q : Query) (actor : EntityId) (scene : Scene) :
    let account := fun strictFilters scores =>
      ((Engine.mk { settings with strictFilters } router scores).ask q actor scene true).1.account
    let lenient := account false scores
    let strict := account true scores'
    (∀ candidate source, lenient.outcome ≠ .error (.filterFailed candidate source)) ∧
    (lenient.trace.warning? = none → strict = lenient) ∧
    ∀ warning, lenient.trace.warning? = some warning →
      ∃ candidate source, strict.outcome = .error (.filterFailed candidate source) ∧
        warning.fields.get? "candidate" = some (.str candidate) ∧
        warning.fields.get? "error" = some (.str source.message) ∧
        strict.trace = lenient.trace.untilWarning := by
  intro account lenient strict
  let e : Engine := { settings := { settings with strictFilters := false }, router, scores }
  let e' : Engine := { settings := { settings with strictFilters := true }, router, scores := scores' }
  have hstopping := ((e.context actor scene true).between_strictly rfl rfl).resolve q 0
  cases hstopping with
  | @calm r t hx hr ht hy =>
      have hlenient : lenient = { outcome := r.bind Answer.ofSet, trace := t } := e.ask_account hx
      have hstrict : strict = { outcome := r.bind Answer.ofSet, trace := t } := e'.ask_account hy
      rw [hlenient, hstrict]
      refine ⟨fun candidate source h => hr.answer _ h trivial, fun _ => rfl, fun warning hwarning => ?_⟩
      cases ht.warning?_eq_none.symm.trans hwarning
  | @stopped r before behind entry candidate source hx hr hbefore hentry hy =>
      have hlenient : lenient = { outcome := r.bind Answer.ofSet, trace := before ++ entry :: behind } :=
        e.ask_account hx
      have hstrict : strict = { outcome := .error (.filterFailed candidate source), trace := before } :=
        e'.ask_account hy
      have hfirst : Trace.warning? (before ++ entry :: behind) = some entry :=
        hbefore.warning?_append hentry.level
      rw [hlenient, hstrict]
      refine ⟨fun candidate source h => hr.answer _ h trivial, fun hnone => ?_,
        fun warning hwarning => ?_⟩
      · cases hfirst.symm.trans hnone
      · cases hfirst.symm.trans hwarning
        exact ⟨candidate, source, rfl, hentry.candidate, hentry.error,
          (hbefore.untilWarning_append hentry.level).symm⟩

/-- A variable bound to nothing is warned of, and ends the query if filters are strict. -/
theorem Engine.unbound_variable_stops_strict_filter :
    let ghostly : Query := .filter (.obj [("var", .str "ghost")]) (.root .actor)
    let world := (∅ : Store).world
    let account := fun strictFilters =>
      ((Engine.new { strictFilters } .standard).ask ghostly "hero" { world } true).1.account
    (account true).outcome = .error (.filterFailed "hero" (.unknownVariable "ghost")) ∧
    ∃ warning, (account false).trace.warning? = some warning ∧
      warning.fields.get? "candidate" = some (.str "hero") ∧
      warning.fields.get? "error" = some (.str "unknown variable 'ghost'") ∧
      (account true).trace = (account false).trace.untilWarning := by
  intro ghostly world account
  have hstrict : (account true).outcome = .error (.filterFailed "hero" (.unknownVariable "ghost")) := by
    let e := Engine.new { strictFilters := true } .standard
    let c := e.context "hero" { world } true
    have htest : c.test (.obj [("var", .str "ghost")]) (.entity "hero") =
        .error (.unknownVariable "ghost") :=
      Predicate.Bindings.evaluate_variable _ _
    have hfound : c.foundByFilter (.obj [("var", .str "ghost")]) (.entity "hero") =
        .error (.filterFailed "hero" (.unknownVariable "ghost")) := by
      simp only [Asking.foundByFilter, htest]
      rfl
    have htreat : c.treat (.filter (.obj [("var", .str "ghost")])) (.ofEntities [c.actor]) =
        .error (.filterFailed "hero" (.unknownVariable "ghost")) := by
      show ((c.foundByFilter _ (.entity "hero") >>= _) : Except _ _).map _ = _
      rw [hfound]
      rfl
    refine (e.ask_outcome rfl ghostly "hero" { world } true).trans ?_
    show (c.within 0 (c.treat _ _)).bind _ = _
    rw [htreat]
    rfl
  obtain ⟨hlenient, hcalm, hwarned⟩ := Engine.strict_stops_at_first_warning {} .standard
    (.ofCapacity ScoreTable.defaultCapacity) (.ofCapacity ScoreTable.defaultCapacity) ghostly "hero"
    { world }
  refine ⟨hstrict, ?_⟩
  cases hwarning : (account false).trace.warning? with
  | none =>
      exact (hlenient _ _ ((congrArg Account.outcome (hcalm hwarning)).symm.trans hstrict)).elim
  | some warning =>
      obtain ⟨candidate, source, houtcome, hcandidate, herror, htrace⟩ := hwarned warning hwarning
      cases hstrict.symm.trans houtcome
      exact ⟨warning, rfl, hcandidate, herror, htrace⟩

end EntityQuery
