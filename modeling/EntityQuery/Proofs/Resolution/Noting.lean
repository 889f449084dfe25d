import EntityQuery.Proofs.Candidate.Union
import EntityQuery.Proofs.Query.Places
import EntityQuery.Proofs.Resolution.Comparison
import EntityQuery.Proofs.Resolution.Treatment
import EntityQuery.Proofs.Support.Entries

/-!
# What nodes note

A node that makes its set adds a passage to the trace (`Trace.Passage`): a warning for each predicate that
failed, if it is a filter, and behind them the entry on the node.

* `Comparison.muting`, `Asking.alike_tracing`: whether there is a trace or none makes no difference to what
  comes of a part of a run.  As only filters ask for it, all other contributions note nothing.
* `Asking.gather_keep_warns`: a filter warns as often as it counts failures, and of these and of the
  candidates that it keeps there are no more than it got.
* `Resolver.resolve_accepted`: a resolver resolves the branches of a node that it accepts, one after the
  other, and notes what it makes of their sets (`Resolving.Notes`).
-/

namespace EntityQuery

open Attire (BodySlot View)

/-! ### Passages -/

namespace Trace

/-- The entry warns of a predicate that failed. -/
structure Entry.Warns (entry : Entry) : Prop where
  level : entry.level = .warn
  resolver : entry.resolver = Resolver.filter.name

/-- What a node adds to a trace: warnings, and the entry on the node. -/
structure Passage where
  warnings : Trace
  entry : Entry

def Passage.entries (p : Passage) : Trace :=
  p.warnings ++ [p.entry]

/-- The passage tells that a resolver made a set of `made` candidates from sets of `got` in all. -/
structure Passage.TellsOf (p : Passage) (r : Resolver) (got made : Nat) : Prop where
  level : p.entry.level = .info
  resolver : p.entry.resolver = r.name
  parentSize : p.entry.fields.get? "parent_size" = some (.ofNat got)
  resultSize : p.entry.fields.get? "result_size" = some (.ofNat made)
  warnings : ∀ w ∈ p.warnings, w.Warns
  failures : r = .filter →
    p.entry.fields.get? "failures" = some (.ofNat p.warnings.length) ∧ made + p.warnings.length ≤ got
  calm : r ≠ .filter → p.warnings = []

end Trace

/-- What else there is to tell of a node leaves the sizes as they are. -/
theorem Trace.Entry.summary_sizes (r : Resolver) (message : String) (got made : Nat)
    {more : List (String × Json)} (h : ∀ b ∈ more, b.1 ≠ "parent_size" ∧ b.1 ≠ "result_size") :
    (Entry.summary r message got made more).fields.get? "parent_size" = some (.ofNat got) ∧
    (Entry.summary r message got made more).fields.get? "result_size" = some (.ofNat made) := by
  constructor
  · refine (Entries.get?_foldl_insert (fun b hb => (h b hb).1) _).trans ?_
    simp [Entries.get?_insert]
  · refine (Entries.get?_foldl_insert (fun b hb => (h b hb).2) _).trans ?_
    simp [Entries.get?_insert]

/-! ### With and without a trace -/

/-- Parts with one result, the second of which notes nothing. -/
def Comparison.muting : Comparison where
  Holds x y := ∃ r t, x.Tells r t ∧ y.Tells r []
  silent h := ⟨_, _, h, h⟩
  refusal _ := ⟨_, _, .throw _, .throw _⟩
  bind := by
    rintro α β x y f g ⟨r, t, hx, hy⟩ hfg
    cases r with
    | error e => exact ⟨_, _, hx.bind_error f, hy.bind_error g⟩
    | ok a    =>
        obtain ⟨s, u, hf, hg⟩ := hfg a
        exact ⟨_, _, hx.bind_ok hf, hy.bind_ok hg⟩

namespace Asking

/-- What holds throughout, but with or without a trace. -/
def tracing (a : Asking) (traced : Bool) : Asking :=
  { a with traced }

variable (a : Asking)

theorem tracing_eq (h : a.traced = true) : a.tracing true = a := by
  rw [← h]
  rfl

/-- A filter notes nothing of a candidate, whether it fails at it or keeps it or not, unless the predicate
fails and is passed over. -/
theorem keep_cases (predicate : Json) (maker : String) (c : Candidate) :
    (∃ e, ∀ traced, ((a.tracing traced).keep predicate maker c).Tells (.error e) []) ∨
    (∃ found : List Candidate, found.length ≤ 1 ∧
      ∀ traced, ((a.tracing traced).keep predicate maker c).Tells (.ok ⟨found, false⟩) []) ∨
    ∃ e, ∀ traced, ((a.tracing traced).keep predicate maker c).Tells (.ok ⟨[], true⟩)
      (if traced then [.failure maker c e] else []) := by
  cases a.meets predicate c with
  | descriptor d hc =>
      subst hc
      exact .inl ⟨_, fun traced => (a.tracing traced).keep_tells_of_descriptor d⟩
  | @told v hc htest =>
      refine .inr (.inl ⟨_, ?_, fun traced => (a.tracing traced).keep_tells_of_ok hc htest⟩)
      split
      · exact Nat.le_refl 1
      · exact Nat.zero_le 1
  | unread hc htest =>
      exact .inl ⟨_, fun traced => (a.tracing traced).keep_tells_of_unread hc htest⟩
  | @failed e hc htest he =>
      cases hstrict : a.settings.strictFilters with
      | true  =>
          exact .inl ⟨_, fun traced => (a.tracing traced).keep_tells_of_strict hc hstrict htest he⟩
      | false =>
          exact .inr (.inr ⟨e, fun traced =>
            (a.tracing traced).keep_tells_of_lenient hc hstrict htest he⟩)

/-- To trace or not makes no difference to what comes of a resolution. -/
theorem alike_tracing : Comparison.muting.Alike (a.tracing true) (a.tracing false) where
  actor := rfl
  location := rfl
  tieBreak := rfl
  component _ _ := ⟨_, _, Resolving.read_tells _, Resolving.read_tells _⟩
  holders _ := ⟨_, _, Resolving.read_tells _, Resolving.read_tells _⟩
  outfit _ := Comparison.muting.bind (Comparison.muting.remark _)
    fun _ => ⟨_, _, Resolving.read_tells _, Resolving.read_tells _⟩
  keep predicate c := by
    rcases a.keep_cases predicate Resolver.filter.name c with ⟨_, h⟩ | ⟨_, -, h⟩ | ⟨_, h⟩
    all_goals exact ⟨_, _, h true, h false⟩
  note entry _ := ⟨_, _, (a.tracing true).note_tells entry, (a.tracing false).note_tells entry⟩

/-! ### Filters -/

/-- A filter warns of a candidate once, if it counts a failure, and then does not keep it. -/
theorem keep_warns (predicate : Json) (maker : String) (c : Candidate) :
    ∃ r t, ((a.tracing true).keep predicate maker c).Tells r t ∧
      (∀ w ∈ t, w.level = .warn ∧ w.resolver = maker) ∧
      ∀ kept, r = .ok kept → t.length = kept.report.toNat ∧ kept.found.length + t.length ≤ 1 := by
  rcases a.keep_cases predicate maker c with ⟨e, h⟩ | ⟨found, hfound, h⟩ | ⟨e, h⟩
  · exact ⟨_, _, h true, nofun, nofun⟩
  · refine ⟨_, _, h true, nofun, ?_⟩
    rintro _ ⟨⟩
    exact ⟨rfl, hfound⟩
  · refine ⟨_, _, h true, fun w hw => ?_, ?_⟩
    · rw [List.mem_singleton.1 hw]
      exact ⟨rfl, rfl⟩
    · rintro _ ⟨⟩
      exact ⟨rfl, Nat.le_refl 1⟩

theorem mapM_keep_warns (predicate : Json) (maker : String) (cs : List Candidate) :
    ∃ r t, (cs.mapM ((a.tracing true).keep predicate maker)).Tells r t ∧
      (∀ w ∈ t, w.level = .warn ∧ w.resolver = maker) ∧
      ∀ kept, r = .ok kept → (kept.map (·.report)).countP id = t.length ∧
        (kept.flatMap (·.found)).length + t.length ≤ cs.length := by
  induction cs with
  | nil =>
      refine ⟨_, _, .pure [], nofun, ?_⟩
      rintro _ ⟨⟩
      exact ⟨rfl, Nat.le_refl 0⟩
  | cons c cs ih =>
      obtain ⟨r, t, hc, hwarns, hkept⟩ := a.keep_warns predicate maker c
      rw [List.mapM_cons]
      cases r with
      | error e => exact ⟨_, _, hc.bind_error _, hwarns, nofun⟩
      | ok k    =>
          obtain ⟨s, u, hcs, hwarns', hkept'⟩ := ih
          have hwarned : ∀ w ∈ t ++ u, w.level = .warn ∧ w.resolver = maker :=
            fun w hw => (List.mem_append.1 hw).elim (hwarns w) (hwarns' w)
          cases s with
          | error e => exact ⟨_, _, hc.bind_ok (hcs.bind_error _), hwarned, nofun⟩
          | ok ks   =>
              obtain ⟨hcount, hlength⟩ := hkept k rfl
              obtain ⟨hcount', hlength'⟩ := hkept' ks rfl
              refine ⟨.ok (k :: ks), t ++ u, ?_, hwarned, ?_⟩
              · rw [← List.append_nil u]
                exact hc.bind_ok (hcs.bind_ok (.pure (k :: ks)))
              · rintro _ ⟨⟩
                have hreport : (if id k.report = true then 1 else 0) = k.report.toNat := by
                  cases k.report <;> rfl
                simp only [List.map_cons, List.countP_cons, List.flatMap_cons, List.length_append,
                  List.length_cons, hreport]
                omega

/-- **A filter warns as often as it counts failures**, and keeps no other candidates than those it does not
warn of. -/
theorem gather_keep_warns (htraced : a.traced = true) (predicate : Json) (maker : String)
    (parent : CandidateSet) :
    ∃ r t, (Resolving.gather (a.keep predicate maker) parent).Tells r t ∧
      (∀ w ∈ t, w.level = .warn ∧ w.resolver = maker) ∧
      ∀ made, r = .ok made → made.2.countP id = t.length ∧ made.1.size + t.length ≤ parent.size := by
  obtain ⟨r, t, hmapM, hwarns, hkept⟩ := a.mapM_keep_warns predicate maker parent.toList
  rw [a.tracing_eq htraced] at hmapM
  cases r with
  | error e => exact ⟨_, _, hmapM.bind_error _, hwarns, nofun⟩
  | ok ks   =>
      obtain ⟨hcount, hlength⟩ := hkept ks rfl
      refine ⟨.ok (.ofList (ks.flatMap (·.found)), ks.map (·.report)), t, ?_, hwarns, ?_⟩
      · rw [← List.append_nil t]
        exact hmapM.bind_ok (.pure _)
      · rintro _ ⟨⟩
        exact ⟨hcount, Nat.le_trans (Nat.add_le_add_right (CandidateSet.size_ofList_le _) _) hlength⟩

end Asking

/-! ### Nodes -/

/-- A node with `got` candidates in its branches makes its set and notes a passage, or it fails after a few
warnings. -/
inductive Resolving.Notes (x : Resolving CandidateSet) (r : Resolver) (got : Nat) : Prop where
  | made {s : CandidateSet} {p : Trace.Passage} (hx : x.Tells (.ok s) p.entries)
      (hp : p.TellsOf r got s.size)
  | failed {e : QueryError} {warnings : Trace} (hx : x.Tells (.error e) warnings)
      (hwarnings : ∀ w ∈ warnings, w.Warns)

/-- An entry that no warnings come before. -/
theorem Trace.Entry.summary_tellsOf {r : Resolver} (hr : r ≠ .filter) (message : String) (got made : Nat)
    {more : List (String × Json)} (h : ∀ b ∈ more, b.1 ≠ "parent_size" ∧ b.1 ≠ "result_size") :
    (Passage.mk [] (.summary r message got made more)).TellsOf r got made where
  level := rfl
  resolver := rfl
  parentSize := (summary_sizes r message got made h).1
  resultSize := (summary_sizes r message got made h).2
  warnings := nofun
  failures hfilter := (hr hfilter).elim
  calm _ := rfl

namespace Asking

variable (a : Asking) (htraced : a.traced = true)
include htraced

/-- What is made is noted behind the warnings on the way. -/
theorem noted_notes {α : Type} {x : Resolving α} {r : Except QueryError α} {warnings : Trace}
    (hx : x.Tells r warnings) (hwarnings : ∀ w ∈ warnings, w.Warns) {entry : α → Trace.Entry}
    {f : α → CandidateSet} {maker : Resolver} {got : Nat}
    (hentry : ∀ made, r = .ok made →
      (Trace.Passage.mk warnings (entry made)).TellsOf maker got (f made).size) :
    Resolving.Notes (do let made ← x; a.note (entry made); return f made) maker got := by
  cases r with
  | error e => exact .failed (hx.bind_error _) hwarnings
  | ok made =>
      have hnoted := (a.note_tells (entry made)).bind_ok (f := fun _ => pure (f made)) (.pure _)
      rw [if_pos htraced] at hnoted
      exact .made (p := ⟨warnings, entry made⟩) (hx.bind_ok hnoted) (hentry made rfl)

/-- A node that gathers contributions without a warning notes its entry. -/
theorem gathered_notes {ρ : Type} {x y : Candidate → Resolving (Contribution ρ)}
    (hxy : ∀ c, Comparison.muting.Holds (x c) (y c)) {parent : CandidateSet} {maker : Resolver}
    {entry : CandidateSet × List ρ → Trace.Entry}
    (hentry : ∀ made, (Trace.Passage.mk [] (entry made)).TellsOf maker parent.size made.1.size) :
    Resolving.Notes (do
      let gathered ← Resolving.gather y parent
      a.note (entry gathered)
      return gathered.1) maker parent.size := by
  obtain ⟨r, -, -, hgather⟩ := Comparison.muting.gather hxy parent
  exact a.noted_notes htraced hgather nofun fun made _ => hentry made

theorem fromRoot_notes (root : Root) : (a.fromRoot root).Notes .source 0 := by
  have hentry : ∀ result : CandidateSet, (Trace.Passage.mk []
      (.summary .source "source resolved" 0 result.size [("source", root.toJson)])).TellsOf
        .source 0 result.size :=
    fun result => Trace.Entry.summary_tellsOf (by decide) _ _ _ (by simp)
  unfold fromRoot
  cases root with
  | entities component =>
      have hholders := (Comparison.muting.bind (a.alike_tracing.holders component)
        fun ids => Comparison.muting.pure (CandidateSet.ofEntities ids))
      obtain ⟨r, -, -, hread⟩ := hholders
      exact a.noted_notes htraced hread nofun fun made _ => hentry made
  | actor | location | none => exact a.noted_notes htraced (.pure _) nofun fun made _ => hentry made

theorem alongField_notes (field : String) (isArray : Bool) (parent : CandidateSet) :
    (a.alongField field isArray parent).Notes .step parent.size :=
  a.gathered_notes htraced (a.alike_tracing.readField field ()) fun made =>
    Trace.Entry.summary_tellsOf (by decide) _ _ _ (by simp)

theorem alongView_notes (view : View) (isArray : Bool) (parent : CandidateSet) :
    (a.alongView view isArray parent).Notes .clothing parent.size :=
  a.gathered_notes htraced (a.alike_tracing.viewOutfit view isArray) fun made =>
    Trace.Entry.summary_tellsOf (by decide) _ _ _ (by cases isArray <;> simp)

theorem alongSlot_notes (slot : BodySlot) (parent : CandidateSet) :
    (a.alongSlot slot parent).Notes .slot parent.size :=
  a.gathered_notes htraced (a.alike_tracing.viewSlot slot) fun made =>
    Trace.Entry.summary_tellsOf (by decide) _ _ _ (by cases commonStrategy (made.2.filterMap id) <;> simp)

theorem flattened_notes (parent : CandidateSet) :
    (a.flattened parent).Notes .arrayIteration parent.size :=
  a.gathered_notes htraced a.alike_tracing.flatten fun made =>
    Trace.Entry.summary_tellsOf (by decide) _ _ _ (by simp)

theorem united_notes (left right : CandidateSet) :
    (a.united left right).Notes .union (left.size + right.size) :=
  a.noted_notes htraced (f := id) (.pure (left.union right)) nofun fun made _ =>
    Trace.Entry.summary_tellsOf (by decide) _ _ _ (by simp)

theorem filtered_notes (predicate : Json) (parent : CandidateSet) :
    (a.filtered predicate parent).Notes .filter parent.size := by
  obtain ⟨r, warnings, hgather, hwarns, hkept⟩ :=
    a.gather_keep_warns htraced predicate Resolver.filter.name parent
  have hwarnings : ∀ w ∈ warnings, w.Warns := fun w hw => ⟨(hwarns w hw).1, (hwarns w hw).2⟩
  refine a.noted_notes htraced (f := (·.1)) hgather hwarnings fun made hmade => ?_
  obtain ⟨hcount, hsize⟩ := hkept made hmade
  have hnames : ∀ b ∈ [("failures", Json.ofNat (made.2.countP id))],
      b.1 ≠ "parent_size" ∧ b.1 ≠ "result_size" := by
    simp
  obtain ⟨hparent, hresult⟩ :=
    Trace.Entry.summary_sizes .filter "filter applied" parent.size made.1.size hnames
  refine ⟨rfl, rfl, hparent, hresult, hwarnings, fun _ => ⟨?_, hsize⟩, nofun⟩
  rw [← hcount]
  simp [Trace.Entry.summary, Table.ofList, Table.get?, Entries.ofList, Entries.get?_insert]

end Asking

/-! ### Nodes and their branches -/

/-- How many candidates are in sets, in each by itself. -/
def CandidateSet.total (ss : List CandidateSet) : Nat :=
  ss.foldr (fun s n => s.size + n) 0

/-- The branches are resolved one after the other, and what is made of their sets is noted. -/
def Resolving.Goes (x : Resolving CandidateSet) (traced : Bool) (r : Resolver)
    (f : Query → Resolving CandidateSet) (branches : List Query) : Prop :=
  ∃ make : List CandidateSet → Resolving CandidateSet, x = branches.mapM f >>= make ∧
    (traced → ∀ ss, ss.length = branches.length → (make ss).Notes r (CandidateSet.total ss))

namespace Resolving.Goes

variable {traced : Bool} {r : Resolver} {f : Query → Resolving CandidateSet} {p q : Query}

theorem alone {x : Resolving CandidateSet} (h : traced → x.Notes r 0) : Goes x traced r f [] := by
  refine ⟨fun _ => x, by simp, fun htraced ss hss => ?_⟩
  rw [List.length_eq_zero_iff.1 hss]
  exact h htraced

theorem onOne {make : CandidateSet → Resolving CandidateSet}
    (h : traced → ∀ s, (make s).Notes r s.size) : Goes (do make (← f p)) traced r f [p] := by
  refine ⟨fun ss => make (ss.headD ∅), by simp, fun htraced ss hss => ?_⟩
  obtain ⟨s, rfl⟩ := List.length_eq_one_iff.1 hss
  simpa [CandidateSet.total] using h htraced s

theorem onBoth {make : CandidateSet → CandidateSet → Resolving CandidateSet}
    (h : traced → ∀ s t, (make s t).Notes r (s.size + t.size)) :
    Goes (do let s ← f p; make s (← f q)) traced r f [p, q] := by
  refine ⟨fun ss => make (ss.headD ∅) (ss.tail.headD ∅), by simp, fun htraced ss hss => ?_⟩
  obtain ⟨s, t, rfl⟩ := List.length_eq_two.1 hss
  simpa [CandidateSet.total] using h htraced s t

end Resolving.Goes

/-- **A resolver resolves the branches of a node that it accepts, and notes what it makes of their
sets.** -/
theorem Resolver.resolve_accepted (a : Asking) {r : Resolver} {q : Query} (h : r.accepts q.node)
    (f : Query → Resolving CandidateSet) :
    (r.resolve a (q.node.map f)).Goes a.traced r f q.branches := by
  cases r with
  | source =>
      cases q with
      | root root => exact .alone fun htraced => a.fromRoot_notes htraced root
      | step | filter | union | flatten => cases h
  | step =>
      cases q with
      | step field isArray p => exact .onOne fun htraced => a.alongField_notes htraced field isArray
      | root | filter | union | flatten => cases h
  | filter =>
      cases q with
      | filter predicate p => exact .onOne fun htraced => a.filtered_notes htraced predicate
      | root | step | union | flatten => cases h
  | union =>
      cases q with
      | union p q => exact .onBoth fun htraced => a.united_notes htraced
      | root | step | filter | flatten => cases h
  | arrayIteration =>
      cases q with
      | flatten p => exact .onOne fun htraced => a.flattened_notes htraced
      | root | step | filter | union => cases h
  | clothing =>
      cases q with
      | step field isArray p =>
          obtain ⟨view, hview⟩ := Option.isSome_iff_exists.1 h
          simp only [Query.node, Query.Node.map, Resolver.resolve, hview]
          exact .onOne fun htraced => a.alongView_notes htraced view isArray
      | root | filter | union | flatten => cases h
  | slot =>
      cases q with
      | step field isArray p =>
          obtain ⟨slot, hslot⟩ := Option.isSome_iff_exists.1 h
          simp only [Query.node, Query.Node.map, Resolver.resolve, hslot]
          exact .onOne fun htraced => a.alongSlot_notes htraced slot
      | root | filter | union | flatten => cases h

end EntityQuery
