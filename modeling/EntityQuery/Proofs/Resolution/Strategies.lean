import EntityQuery.Proofs.Attire.Occupied
import EntityQuery.Proofs.Attire.Strategies
import EntityQuery.Proofs.Candidate.Union
import EntityQuery.Proofs.Resolution.Routing

/-!
# What is told of strategies

The entry on a step to a view, in the array form, and that on a step to a slot tell by which strategy slots
were looked at.

* `Asking.viewOutfit_tells`, `Asking.viewSlot_tells`: what a candidate contributes, with the report on it.
* `Asking.encard_slots`, `Asking.mem_strategies_iff`: what the reports on all candidates come to.
* `Asking.viewOutfit_keepsScores`, `Asking.viewSlot_keepsScores`: a candidate that needs no ranking leaves the
  score table as it is.
* `Context.steps_of_ok`: a step that is resolved makes one entry, on all reports.

`Context.strategies_are_told_truly` puts these together.
-/

namespace EntityQuery

open Attire (BodySlot Look Outfit Strategy View)

/-! ### Parts one after the other -/

namespace Resolving

variable {α β ρ : Type} {x : Resolving α} {f : α → Resolving β} {run : Run} {a : α}

theorem after_bind_of_ok (h : x.result run = .ok a) : (x >>= f).after run = (f a).after (x.after run) := by
  have hrun : (x >>= f).run.run run = (ExceptT.bindCont f (x.result run)).run (x.after run) := rfl
  rw [after, hrun, h]
  rfl

theorem after_bind_of_error {e : QueryError} (h : x.result run = .error e) :
    (x >>= f).after run = x.after run := by
  have hrun : (x >>= f).run.run run = (ExceptT.bindCont f (x.result run)).run (x.after run) := rfl
  rw [after, hrun, h]
  rfl

/-- Parts that note nothing, one after the other, note nothing. -/
theorem Tells.bind_silent {r : Except QueryError α} {g : α → Except QueryError β} (hx : x.Tells r [])
    (hf : ∀ a, (f a).Tells (g a) []) : (x >>= f).Tells (r >>= g) [] := by
  have h := hx.bind hf
  cases r <;> exact h

theorem Tells.mapM_silent {f : α → Resolving β} {g : α → Except QueryError β}
    (h : ∀ a, (f a).Tells (g a) []) (as : List α) : (as.mapM f).Tells (as.mapM g) [] := by
  induction as with
  | nil          => exact .pure []
  | cons a as ih =>
      rw [List.mapM_cons, List.mapM_cons]
      exact (h a).bind_silent fun _ => ih.bind_silent fun _ => .pure _

/-! ### Parts that ask for no scores -/

/-- The score table is afterwards as it was before. -/
def KeepsScores (x : Resolving α) : Prop :=
  ∀ run, (x.after run).scores = run.scores

theorem KeepsScores.pure (a : α) : KeepsScores (pure a) :=
  fun _ => rfl

theorem KeepsScores.throw (e : QueryError) : KeepsScores (throw e : Resolving α) :=
  fun _ => rfl

/-- One part after the other keeps the table, if the second does after each result that the first one has. -/
theorem KeepsScores.bind_of_result (hx : x.KeepsScores)
    (hf : ∀ run a, x.result run = .ok a → (f a).KeepsScores) : (x >>= f).KeepsScores := by
  intro run
  cases hresult : x.result run with
  | ok a    => rw [after_bind_of_ok hresult, hf run a hresult, hx]
  | error e => rw [after_bind_of_error hresult, hx]

theorem KeepsScores.bind (hx : x.KeepsScores) (hf : ∀ a, (f a).KeepsScores) : (x >>= f).KeepsScores :=
  hx.bind_of_result fun _ a _ => hf a

theorem KeepsScores.mapM {f : α → Resolving β} {as : List α} (h : ∀ a ∈ as, (f a).KeepsScores) :
    (as.mapM f).KeepsScores := by
  induction as with
  | nil          => exact .pure []
  | cons a as ih =>
      obtain ⟨ha, has⟩ := List.forall_mem_cons.1 h
      rw [List.mapM_cons]
      exact ha.bind fun _ => (ih has).bind fun _ => .pure _

theorem look_keepsScores {x : Look α} (h : x.KeepsScores) : (look x).KeepsScores :=
  fun run => h run.toLedger

theorem remark_keepsScores (events : Log) : (remark events).KeepsScores :=
  fun _ => rfl

theorem note_keepsScores (entry : Trace.Entry) : (note entry).KeepsScores :=
  fun _ => rfl

theorem read_keepsScores (reading : Except ReadFault α) : (read reading).KeepsScores := by
  cases reading with
  | ok a        => exact .pure a
  | error fault => exact .throw _

theorem gather_keepsScores {contribute : Candidate → Resolving (Contribution ρ)} {parent : CandidateSet}
    (h : ∀ c ∈ parent.toList, (contribute c).KeepsScores) : (gather contribute parent).KeepsScores :=
  (KeepsScores.mapM h).bind fun _ => .pure _

end Resolving

namespace Asking

variable (a : Asking)

/-! ### What candidates contribute -/

/-- What a candidate contributes to the array form of a step to a view. -/
def shownByView (view : View) : Candidate → Except QueryError (Contribution SlotCount)
  | .entity id    =>
      ((a.scene.world.outfit id).mapError .unread).map fun outfit =>
        let finding := outfit.finding a.settings.tieBreak view
        ⟨finding.items.map .entity, ⟨finding.layerReads, finding.rankings⟩⟩
  | .value _      => .ok ⟨[], {}⟩
  | .descriptor d => .error (.unresolvedDescriptor d.owner d.view)

/-- What a candidate contributes to a step to a slot. -/
def shownInSlot (slot : BodySlot) : Candidate → Except QueryError (Contribution (Option Strategy))
  | .descriptor d =>
      .ok ⟨(d.outfit.shownItems a.settings.tieBreak slot.name d.view).map .entity,
        some (d.outfit.strategy slot.name d.view)⟩
  | c             => (a.foundInField slot.name c).map (⟨·, none⟩)

theorem outfitOf_tells (entity : EntityId) :
    (a.outfitOf entity).Tells ((a.scene.world.outfit entity).mapError .unread) [] :=
  (Resolving.remark_tells _).bind_silent fun _ => Resolving.read_tells _

theorem readField_tells {ρ : Type} (field : String) (report : ρ) (c : Candidate) :
    (a.readField field report c).Tells ((a.foundInField field c).map (⟨·, report⟩)) [] := by
  have hdata : (a.fieldData? field c).Tells (a.fieldOf field c) [] := by
    cases c with
    | entity id    => exact Resolving.read_tells _
    | value v      => exact .pure _
    | descriptor d => exact .throw _
  rw [foundInField]
  cases hc : a.fieldOf field c with
  | error e  =>
      rw [hc] at hdata
      exact hdata.bind_error _
  | ok data? =>
      rw [hc] at hdata
      cases data? with
      | none      => exact hdata.bind_ok (.pure _)
      | some data => exact hdata.bind_ok (.pure _)

theorem viewOutfit_tells (view : View) (c : Candidate) :
    (a.viewOutfit view true c).Tells (a.shownByView view c) [] := by
  cases c with
  | value v      => exact .pure _
  | descriptor d => exact .throw _
  | entity id    =>
      have hload := a.outfitOf_tells id
      rw [shownByView]
      cases houtfit : a.scene.world.outfit id with
      | error fault =>
          rw [houtfit] at hload
          exact hload.bind_error _
      | ok outfit   =>
          rw [houtfit] at hload
          have hlook := Resolving.look_tells (outfit.look_shows a.settings.tieBreak view)
          exact hload.bind_ok (u := []) (hlook.bind_ok (u := []) ((Resolving.remark_tells _).bind_ok (.pure _)))

theorem viewSlot_tells (slot : BodySlot) (c : Candidate) :
    (a.viewSlot slot c).Tells (a.shownInSlot slot c) [] := by
  cases c with
  | entity id    => exact a.readField_tells slot.name none (.entity id)
  | value v      => exact a.readField_tells slot.name none (.value v)
  | descriptor d =>
      have hlook := Resolving.look_tells (d.outfit.lookAtSlot_shows a.settings.tieBreak slot.name d.view)
      exact hlook.bind_ok (u := []) ((Resolving.remark_tells _).bind_ok (.pure _))

/-! ### Candidates that need no ranking -/

theorem note_keepsScores (entry : Trace.Entry) : (a.note entry).KeepsScores := by
  unfold note
  split
  · exact Resolving.note_keepsScores entry
  · exact .pure ()

theorem readField_keepsScores {ρ : Type} (field : String) (report : ρ) (c : Candidate) :
    (a.readField field report c).KeepsScores := by
  have hdata : (a.fieldData? field c).KeepsScores := by
    cases c with
    | entity id    => exact Resolving.read_keepsScores _
    | value v      => exact .pure _
    | descriptor d => exact .throw _
  refine hdata.bind fun data? => ?_
  cases data? <;> exact .pure _

theorem viewOutfit_keepsScores {view : View} {c : Candidate}
    (h : ∀ id o, c = .entity id → a.scene.world.outfit id = .ok o →
      ∀ slot ∈ o.items.slotNames, ¬ o.NeedsRanking slot view) :
    (a.viewOutfit view true c).KeepsScores := by
  cases c with
  | value v      => exact .pure _
  | descriptor d => exact .throw _
  | entity id    =>
      have hload : (a.outfitOf id).KeepsScores :=
        (Resolving.remark_keepsScores _).bind fun _ => Resolving.read_keepsScores _
      refine hload.bind_of_result fun run o ho => ?_
      have houtfit : a.scene.world.outfit id = .ok o := by
        rw [(a.outfitOf_comesTo id).result_eq run] at ho
        exact Attempt.mapError_eq_ok.1 ho
      have hlook := Attire.Outfit.look_keepsScores a.settings.tieBreak (h id o rfl houtfit)
      exact (Resolving.look_keepsScores hlook).bind fun _ =>
        (Resolving.remark_keepsScores _).bind fun _ => .pure _

theorem viewSlot_keepsScores {slot : BodySlot} {c : Candidate}
    (h : ∀ d, c = .descriptor d → ¬ d.outfit.NeedsRanking slot.name d.view) :
    (a.viewSlot slot c).KeepsScores := by
  cases c with
  | entity id    => exact a.readField_keepsScores slot.name none (.entity id)
  | value v      => exact a.readField_keepsScores slot.name none (.value v)
  | descriptor d =>
      have hlook := Attire.Outfit.lookAtSlot_keepsScores a.settings.tieBreak (h d rfl)
      exact (Resolving.look_keepsScores hlook).bind fun _ =>
        (Resolving.remark_keepsScores _).bind fun _ => .pure _

/-! ### Nodes -/

/-- A node that gathers what notes nothing makes one entry, on all reports, and it leaves the score table as
it is if all that it gathers does. -/
theorem gathered_of_ok {ρ : Type} {contribute : Candidate → Resolving (Contribution ρ)}
    {g : Candidate → Except QueryError (Contribution ρ)} (hg : ∀ c, (contribute c).Tells (g c) [])
    {parent : CandidateSet} {entry : CandidateSet × List ρ → Trace.Entry} {x : Resolving CandidateSet}
    (hx : x = do
      let gathered ← Resolving.gather contribute parent
      a.note (entry gathered)
      return gathered.1)
    {run : Run} {s : CandidateSet} (h : x.result run = .ok s) :
    ∃ ks, parent.toList.mapM g = .ok ks ∧
      (x.after run).trace = run.trace ++ (if a.traced then [entry (s, ks.map (·.report))] else []) ∧
      ((∀ c ∈ parent.toList, (contribute c).KeepsScores) → (x.after run).scores = run.scores) := by
  subst hx
  have hgather : (Resolving.gather contribute parent).Tells
      (parent.toList.mapM g >>= fun ks => .ok (.ofList (ks.flatMap (·.found)), ks.map (·.report))) [] :=
    (Resolving.Tells.mapM_silent hg parent.toList).bind_silent fun _ => .pure _
  cases hks : parent.toList.mapM g with
  | error e =>
      rw [hks] at hgather
      cases h.symm.trans (hgather.bind_error _ run).1
  | ok ks   =>
      rw [hks] at hgather
      obtain ⟨hresult, htrace⟩ := hgather.bind_ok (f := fun gathered => do
        a.note (entry gathered)
        return gathered.1) ((a.note_tells _).bind_ok (.pure _)) run
      obtain rfl : s = .ofList (ks.flatMap (·.found)) := Except.ok.inj (h.symm.trans hresult)
      refine ⟨ks, rfl, ?_, fun hkeeps => ?_⟩
      · rwa [List.nil_append, List.append_nil] at htrace
      · exact ((Resolving.gather_keepsScores hkeeps).bind fun made =>
          (a.note_keepsScores (entry made)).bind fun _ => .pure _) run

/-! ### Slots that are counted -/

/-- The slots in which entities among candidates wear something, each with the entity. -/
def slotsWorn (s : CandidateSet) : Set (EntityId × String) :=
  {x | .entity x.1 ∈ s.toList ∧ ∃ o, a.scene.world.outfit x.1 = .ok o ∧
    ∃ layer item, o.items.itemAt? x.2 layer = some item}

/-- Those of them that need to be ranked. -/
def slotsRanked (view : View) (s : CandidateSet) : Set (EntityId × String) :=
  {x ∈ a.slotsWorn s | ∃ o, a.scene.world.outfit x.1 = .ok o ∧ o.NeedsRanking x.2 view}

/-- The slots in which a candidate wears something, in the order in which they are looked at. -/
def slotsOf : Candidate → List (EntityId × String)
  | .entity id => ((a.scene.world.outfit id).toOption.elim [] (·.items.slotNames)).map (id, ·)
  | _          => []

/-- Whether an entity's slot needs to be ranked. -/
def needsRanking (view : View) (x : EntityId × String) : Bool :=
  (a.scene.world.outfit x.1).toOption.any fun o => o.NeedsRanking x.2 view

variable {a} {view : View}

theorem needsRanking_iff {x : EntityId × String} :
    a.needsRanking view x ↔ ∃ o, a.scene.world.outfit x.1 = .ok o ∧ o.NeedsRanking x.2 view := by
  rw [needsRanking]
  cases a.scene.world.outfit x.1 <;> simp [Except.toOption]

theorem mem_slotsOf_iff {c : Candidate} {x : EntityId × String} :
    x ∈ a.slotsOf c ↔ c = .entity x.1 ∧ ∃ o, a.scene.world.outfit x.1 = .ok o ∧
      ∃ layer item, o.items.itemAt? x.2 layer = some item := by
  obtain ⟨id, slot⟩ := x
  cases c with
  | value _ | descriptor _ => simp [slotsOf]
  | entity id'             =>
      rw [slotsOf, List.mem_map]
      constructor
      · rintro ⟨slot', hslot, heq⟩
        cases heq
        cases houtfit : a.scene.world.outfit id with
        | error fault =>
            rw [houtfit] at hslot
            cases hslot
        | ok o        =>
            rw [houtfit] at hslot
            exact ⟨rfl, o, rfl, World.full_of_outfit houtfit slot hslot⟩
      · rintro ⟨hid, o, houtfit, layer, item, hworn⟩
        cases hid
        rw [houtfit]
        exact ⟨slot, Attire.Equipment.mem_slotNames_of_worn hworn, rfl⟩

theorem nodup_slotsOf (s : CandidateSet) : (s.toList.flatMap a.slotsOf).Nodup := by
  refine List.nodup_flatMap.2 ⟨fun c _ => ?_, s.nodup_toList.imp ?_⟩
  · cases c with
    | value _ | descriptor _ => exact List.nodup_nil
    | entity id              =>
        refine List.Nodup.map (fun _ _ h => congrArg Prod.snd h) ?_
        cases a.scene.world.outfit id with
        | error fault => exact List.nodup_nil
        | ok o        => exact o.items.pairwise_slotNames.imp ne_of_lt
  · intro c d hne x hc hd
    exact hne ((mem_slotsOf_iff.1 hc).1.trans (mem_slotsOf_iff.1 hd).1.symm)

theorem mem_slotsWorn_iff {s : CandidateSet} {x : EntityId × String} :
    x ∈ a.slotsWorn s ↔ x ∈ s.toList.flatMap a.slotsOf := by
  simp only [List.mem_flatMap, mem_slotsOf_iff]
  constructor
  · rintro ⟨hx, hworn⟩
    exact ⟨_, hx, rfl, hworn⟩
  · rintro ⟨_, hx, rfl, hworn⟩
    exact ⟨hx, hworn⟩

theorem mem_slotsRanked_iff {s : CandidateSet} {x : EntityId × String} :
    x ∈ a.slotsRanked view s ↔ x ∈ s.toList.flatMap a.slotsOf ∧ a.needsRanking view x :=
  and_congr mem_slotsWorn_iff needsRanking_iff.symm

/-- The report on a candidate counts its slots. -/
theorem report_of_shownByView {c : Candidate} {k : Contribution SlotCount} (h : a.shownByView view c = .ok k) :
    k.report.layerReads + k.report.rankings = (a.slotsOf c).length ∧
    k.report.rankings = (a.slotsOf c).countP (a.needsRanking view) := by
  cases c with
  | value _      =>
      cases h
      exact ⟨rfl, rfl⟩
  | descriptor _ => cases h
  | entity id    =>
      obtain ⟨o, ho, rfl⟩ := Attempt.map_eq_ok.1 h
      have houtfit := Attempt.mapError_eq_ok.1 ho
      rw [slotsOf, houtfit]
      constructor
      · rw [List.length_map]
        exact o.layerReads_add_rankings a.settings.tieBreak view
      · rw [List.countP_map]
        refine (o.rankings_finding a.settings.tieBreak view).trans (List.countP_congr fun slot _ => ?_)
        simp [needsRanking, houtfit, Except.toOption]

/-- The reports on candidates, added up, count the slots of all. -/
theorem total_of_shownByView {cs : List Candidate} {ks : List (Contribution SlotCount)}
    (h : cs.mapM (a.shownByView view) = .ok ks) :
    let total := SlotCount.total (ks.map (·.report))
    total.layerReads + total.rankings = (cs.flatMap a.slotsOf).length ∧
    total.rankings = (cs.flatMap a.slotsOf).countP (a.needsRanking view) := by
  induction cs generalizing ks with
  | nil          =>
      cases h
      exact ⟨rfl, rfl⟩
  | cons c cs ih =>
      rw [List.mapM_cons] at h
      obtain ⟨k, hk, h⟩ := Attempt.bind_eq_ok.1 h
      obtain ⟨ks', hks, h⟩ := Attempt.bind_eq_ok.1 h
      cases h
      obtain ⟨hlength, hcount⟩ := report_of_shownByView hk
      obtain ⟨hlength', hcount'⟩ := ih hks
      rw [List.flatMap_cons, List.length_append, List.countP_append, ← hlength, ← hcount, ← hlength', ← hcount']
      refine ⟨?_, rfl⟩
      simp only [SlotCount.total, List.map_cons, List.foldr_cons]
      omega

/-- **The reports count the slots that are worn, and those that need to be ranked.** -/
theorem encard_slots {s : CandidateSet} {ks : List (Contribution SlotCount)}
    (h : s.toList.mapM (a.shownByView view) = .ok ks) :
    let total := SlotCount.total (ks.map (·.report))
    (a.slotsWorn s).encard = total.layerReads + total.rankings ∧
    (a.slotsRanked view s).encard = total.rankings := by
  obtain ⟨hlength, hcount⟩ := total_of_shownByView h
  constructor
  · rw [encard_eq_length (nodup_slotsOf s) fun x => mem_slotsWorn_iff, ← hlength, Nat.cast_add]
  · rw [encard_eq_countP (nodup_slotsOf s) fun x => mem_slotsRanked_iff, hcount]

/-- The strategies that are reported are those of the descriptors. -/
theorem mem_strategies_iff {slot : BodySlot} {s : CandidateSet} {ks : List (Contribution (Option Strategy))}
    (h : s.toList.mapM (a.shownInSlot slot) = .ok ks) (strategy : Strategy) :
    strategy ∈ (ks.map (·.report)).filterMap id ↔
      ∃ d, .descriptor d ∈ s.toList ∧ d.outfit.strategy slot.name d.view = strategy := by
  rw [List.mem_filterMap]
  constructor
  · rintro ⟨_, hreport, hstrategy⟩
    obtain ⟨k, hk, rfl⟩ := List.mem_map.1 hreport
    obtain ⟨c, hc, hck⟩ := Attempt.exists_of_mem_mapM h hk
    cases c with
    | descriptor d       =>
        cases hck
        exact ⟨d, hc, Option.some.inj hstrategy⟩
    | entity _ | value _ =>
        simp only [shownInSlot] at hck
        obtain ⟨_, -, rfl⟩ := Attempt.map_eq_ok.1 hck
        cases hstrategy
  · rintro ⟨d, hd, rfl⟩
    obtain ⟨k, hk, hdk⟩ := Attempt.exists_of_mapM_eq_ok h hd
    cases hdk
    exact ⟨_, List.mem_map_of_mem hk, rfl⟩

/-! The strategy to report is brought up to date slot by slot; it does not depend on their order. -/

theorem strategyAfter_ne_none (strategy? : Option Strategy) (next : Strategy) :
    strategyAfter strategy? next ≠ none := by
  rcases strategy? with _ | _ | _ <;> cases next <;> simp [strategyAfter]

theorem strategyAfter_eq_ranked_iff {strategy? : Option Strategy} {next : Strategy} :
    strategyAfter strategy? next = some .ranked ↔ strategy? = some .ranked ∨ next = .ranked := by
  rcases strategy? with _ | _ | _ <;> cases next <;> simp [strategyAfter]

theorem commonStrategy_concat (strategies : List Strategy) (next : Strategy) :
    commonStrategy (strategies ++ [next]) = strategyAfter (commonStrategy strategies) next :=
  List.foldl_append ..

theorem commonStrategy_eq_none_iff {strategies : List Strategy} :
    commonStrategy strategies = none ↔ strategies = [] := by
  cases strategies using List.reverseRecOn with
  | nil                           => exact iff_of_true rfl rfl
  | append_singleton strategies s =>
      rw [commonStrategy_concat]
      exact iff_of_false (strategyAfter_ne_none _ _) (List.concat_ne_nil s strategies)

theorem commonStrategy_eq_ranked_iff {strategies : List Strategy} :
    commonStrategy strategies = some .ranked ↔ .ranked ∈ strategies := by
  induction strategies using List.reverseRecOn with
  | nil                              => exact iff_of_false nofun List.not_mem_nil
  | append_singleton strategies s ih =>
      rw [commonStrategy_concat, strategyAfter_eq_ranked_iff, ih, List.mem_append, List.mem_singleton,
        eq_comm (a := s)]

end Asking

/-! ### What entries tell -/

namespace Attire.Strategy

theorem name_ofCount (n : Nat) : (ofCount n).name = if 0 < n then "coverage" else "legacy" := by
  rw [ofCount]
  split <;> rfl

end Attire.Strategy

namespace Context

variable (c : Context)

theorem boundDepth_after (d : Nat) (run : Run) : (c.boundDepth d).after run = run := by
  unfold boundDepth
  split <;> rfl

theorem boundSize_of_ok {made s : CandidateSet} {run : Run} (h : (c.boundSize made).result run = .ok s) :
    made = s ∧ (c.boundSize made).after run = run := by
  unfold boundSize at h ⊢
  split at h
  · cases h
  · rename_i hsize
    rw [if_neg hsize]
    exact ⟨Except.ok.inj h, rfl⟩

/-- A node that is resolved goes to its resolver with the run as it is, but for the log. -/
theorem resolve_of_ok {q : Query} {d : Nat} {r : Resolver} (hr : c.router.resolverFor? q.node = some r)
    {run : Run} {s : CandidateSet} (h : (c.resolve q d).result run = .ok s) :
    ∃ before : Run, before.scores = run.scores ∧ before.trace = run.trace ∧
      (c.resolveBy r q d).result before = .ok s ∧
      (c.resolveBy r q d).after before = (c.resolve q d).after run := by
  have hroute : c.router.resolverFor? (q.node.map fun p => c.resolve p (d + 1)) = some r :=
    (Query.Node.resolverFor?_map _ _ _).trans hr
  rw [c.resolve_eq, dispatch_eq, route, hroute] at h ⊢
  -- The bounds change nothing, and between them stands a remark that the resolver is asked.
  obtain ⟨_, hdepth, h⟩ := Resolving.exists_of_bind_result_eq_ok h
  rw [Resolving.after_bind_of_ok hdepth, boundDepth_after]
  rw [boundDepth_after] at h
  obtain ⟨_, hremark, h⟩ := Resolving.exists_of_bind_result_eq_ok h
  rw [Resolving.after_bind_of_ok hremark]
  obtain ⟨made, hmade, h⟩ := Resolving.exists_of_bind_result_eq_ok h
  rw [Resolving.after_bind_of_ok hmade]
  obtain ⟨rfl, hafter⟩ := c.boundSize_of_ok h
  exact ⟨(Resolving.remark _).after run, rfl, rfl, hmade, hafter.symm⟩

/-- The step `q`, whose branch `p` was resolved to `parent` in the run that is `mid` afterwards, makes `entry`
and no other. -/
structure Steps (q p : Query) (d : Nat) (run : Run) (maker : Resolver) (parent : CandidateSet) (mid : Run)
    (entry : Trace.Entry) : Prop where
  branch : ∃ before : Run, before.scores = run.scores ∧ before.trace = run.trace ∧
    (c.resolve p (d + 1)).result before = .ok parent ∧ (c.resolve p (d + 1)).after before = mid
  maker : entry.resolver = maker.name
  trace : ((c.resolve q d).after run).trace = mid.trace ++ if c.traced then [entry] else []

/-- A node that is resolved goes to some resolver. -/
theorem exists_resolver_of_ok {q : Query} {d : Nat} {run : Run} {s : CandidateSet}
    (h : (c.resolve q d).result run = .ok s) : ∃ r, c.router.resolverFor? q.node = some r := by
  refine Option.ne_none_iff_exists'.1 fun hnone => ?_
  have hroute : c.router.resolverFor? (q.node.map fun p => c.resolve p (d + 1)) = none :=
    (Query.Node.resolverFor?_map _ _ _).trans hnone
  rw [c.resolve_eq, dispatch_eq, route, hroute] at h
  obtain ⟨_, -, h⟩ := Resolving.exists_of_bind_result_eq_ok h
  cases h

/-- A step that is resolved and gathers what notes nothing makes one entry, on all reports. -/
theorem steps_of_ok {ρ : Type} {q p : Query} {d : Nat} {r : Resolver}
    (hr : c.router.resolverFor? q.node = some r) {make : CandidateSet → Resolving CandidateSet}
    (hby : c.resolveBy r q d = (c.resolve p (d + 1) >>= make))
    {contribute : Candidate → Resolving (Contribution ρ)} {g : Candidate → Except QueryError (Contribution ρ)}
    (hg : ∀ x, (contribute x).Tells (g x) []) {entry : CandidateSet → CandidateSet × List ρ → Trace.Entry}
    (hmake : ∀ parent, make parent = do
      let gathered ← Resolving.gather contribute parent
      c.note (entry parent gathered)
      return gathered.1)
    (hmaker : ∀ parent gathered, (entry parent gathered).resolver = r.name)
    {run : Run} {s : CandidateSet} (h : (c.resolve q d).result run = .ok s) :
    ∃ parent mid ks, c.Steps q p d run r parent mid (entry parent (s, ks.map (·.report))) ∧
      parent.toList.mapM g = .ok ks ∧
      ((∀ x ∈ parent.toList, (contribute x).KeepsScores) →
        ((c.resolve q d).after run).scores = mid.scores) := by
  obtain ⟨before, hscores, htrace, hresult, hafter⟩ := c.resolve_of_ok hr h
  rw [hby] at hresult hafter
  obtain ⟨parent, hparent, hmade⟩ := Resolving.exists_of_bind_result_eq_ok hresult
  rw [Resolving.after_bind_of_ok hparent] at hafter
  obtain ⟨ks, hks, hnoted, hkeeps⟩ := c.gathered_of_ok hg (hmake parent) hmade
  rw [hafter] at hnoted hkeeps
  exact ⟨parent, _, ks, ⟨⟨before, hscores, htrace, hparent, rfl⟩, hmaker parent _, hnoted⟩, hks, hkeeps⟩

/-- The entry on the array form of a step to a view tells truly how many slots were looked at how. -/
structure CountsTruly (view : View) (parent : CandidateSet) (mid fin : Run) (entry : Trace.Entry)
    (legacy coverage : Nat) : Prop where
  loaded : ∀ id, .entity id ∈ parent.toList → ∃ o, c.scene.world.outfit id = .ok o
  legacySlots : entry.fields.get? "legacy_slots" = some (.ofNat legacy)
  coverageSlots : entry.fields.get? "coverage_slots" = some (.ofNat coverage)
  worn : (c.slotsWorn parent).encard = legacy + coverage
  ranked : (c.slotsRanked view parent).encard = coverage
  strategy : entry.fields.get? "strategy" = some (.str (if 0 < coverage then "coverage" else "legacy"))
  kept : entry.fields.get? "strategy" = some (.str "legacy") → fin.scores = mid.scores

/-- The entry on a step to a slot tells truly whether the slot of a descriptor was ranked. -/
structure NamesTruly (slot : BodySlot) (parent : CandidateSet) (mid fin : Run) (entry : Trace.Entry) :
    Prop where
  strategy : entry.fields.get? "strategy" ∈ [none, some (.str "legacy"), some (.str "coverage")]
  named : entry.fields.get? "strategy" ≠ none ↔ ∃ x, .descriptor x ∈ parent.toList
  ranked : entry.fields.get? "strategy" = some (.str "coverage") ↔
    ∃ x, .descriptor x ∈ parent.toList ∧ x.outfit.NeedsRanking slot.name x.view
  kept : entry.fields.get? "strategy" ≠ some (.str "coverage") → fin.scores = mid.scores

variable {c} {p : Query} {d : Nat} {run : Run} {s : CandidateSet}

/-- An entry with what the reports on the candidates add up to tells truly what they count. -/
theorem countsTruly_of_reports {view : View} {parent : CandidateSet} {mid fin : Run} {entry : Trace.Entry}
    {ks : List (Contribution Asking.SlotCount)} (hks : parent.toList.mapM (c.shownByView view) = .ok ks)
    {total : Asking.SlotCount} (htotal : total = .total (ks.map (·.report)))
    (hlegacy : entry.fields.get? "legacy_slots" = some (.ofNat total.layerReads))
    (hcoverage : entry.fields.get? "coverage_slots" = some (.ofNat total.rankings))
    (hstrategy : entry.fields.get? "strategy" = some (.str (Strategy.ofCount total.rankings).name))
    (hkeeps : (∀ x ∈ parent.toList, (c.viewOutfit view true x).KeepsScores) → fin.scores = mid.scores) :
    c.CountsTruly view parent mid fin entry total.layerReads total.rankings := by
  rw [Strategy.name_ofCount] at hstrategy
  obtain ⟨hworn, hranked⟩ := Asking.encard_slots hks
  rw [← htotal] at hworn hranked
  refine ⟨fun id hid => ?_, hlegacy, hcoverage, hworn, hranked, hstrategy, fun hread => ?_⟩
  · obtain ⟨k, -, hk⟩ := Attempt.exists_of_mapM_eq_ok hks hid
    obtain ⟨o, ho, -⟩ := Attempt.map_eq_ok.1 hk
    exact ⟨o, Attempt.mapError_eq_ok.1 ho⟩
  · -- No slot was ranked, so there is none that needed it.
    have hnone : ¬ 0 < total.rankings := by
      intro hpos
      rw [hstrategy, if_pos hpos] at hread
      simp at hread
    rw [Nat.eq_zero_of_not_pos hnone, Nat.cast_zero, Set.encard_eq_zero] at hranked
    refine hkeeps fun x hx => c.viewOutfit_keepsScores ?_
    rintro id o rfl houtfit slot hslot hneeds
    have hmem : (id, slot) ∈ c.slotsRanked view parent :=
      ⟨⟨hx, o, houtfit, World.full_of_outfit houtfit slot hslot⟩, o, houtfit, hneeds⟩
    rw [hranked] at hmem
    exact hmem

theorem view_steps {view : View} (h : (c.resolve (.step view.field true p) d).result run = .ok s) :
    ∃ parent mid entry legacy coverage, c.Steps (.step view.field true p) p d run .clothing parent mid entry ∧
      c.CountsTruly view parent mid ((c.resolve (.step view.field true p) d).after run) entry legacy
        coverage := by
  obtain ⟨r, hr⟩ := c.exists_resolver_of_ok h
  obtain rfl := Resolver.eq_clothing_of_accepts (View.ofField?_field view) (Router.accepts_of_resolverFor? hr)
  have hby : c.resolveBy .clothing (.step view.field true p) d =
      (c.resolve p (d + 1) >>= c.alongView view true) := by
    simp only [resolveBy, Query.node, Query.Node.map, Resolver.resolve, View.ofField?_field]
  obtain ⟨parent, mid, ks, hsteps, hks, hkeeps⟩ :=
    c.steps_of_ok hr hby (c.viewOutfit_tells view) (fun _ => rfl) (fun _ _ => rfl) h
  refine ⟨parent, mid, _, _, _, hsteps, countsTruly_of_reports hks rfl ?_ ?_ ?_ hkeeps⟩ <;>
    simp [Trace.Entry.summary, Table.ofList, Table.get?, Entries.ofList, Entries.get?_insert]

/-- An entry with the name of a strategy, where there is one, tells truly what is true of the strategy. -/
theorem namesTruly_of_field {slot : BodySlot} {parent : CandidateSet} {mid fin : Run} {entry : Trace.Entry}
    {strategy? : Option Strategy} (hfield : entry.fields.get? "strategy" = strategy?.map (.str ·.name))
    (hnone : strategy? = none ↔ ¬ ∃ x, .descriptor x ∈ parent.toList)
    (hranked : strategy? = some .ranked ↔
      ∃ x, .descriptor x ∈ parent.toList ∧ x.outfit.NeedsRanking slot.name x.view)
    (hkept : strategy? ≠ some .ranked → fin.scores = mid.scores) :
    NamesTruly slot parent mid fin entry := by
  have hread : entry.fields.get? "strategy" = none ↔ strategy? = none := by
    rw [hfield, Option.map_eq_none_iff]
  have hcoverage : entry.fields.get? "strategy" = some (.str "coverage") ↔ strategy? = some .ranked := by
    rw [hfield]
    rcases strategy? with _ | _ | _ <;> simp [Strategy.name]
  refine ⟨?_, (not_congr (hread.trans hnone)).trans not_not, hcoverage.trans hranked, fun hne => hkept ?_⟩
  · rw [hfield]
    rcases strategy? with _ | _ | _ <;> simp [Strategy.name]
  · exact hne ∘ hcoverage.2

theorem slot_steps {slot : BodySlot} {isArray : Bool}
    (hr : c.router.resolverFor? (Query.step slot.name isArray p).node = some .slot)
    (h : (c.resolve (.step slot.name isArray p) d).result run = .ok s) :
    ∃ parent mid entry, c.Steps (.step slot.name isArray p) p d run .slot parent mid entry ∧
      NamesTruly slot parent mid ((c.resolve (.step slot.name isArray p) d).after run) entry := by
  have hby : c.resolveBy .slot (.step slot.name isArray p) d =
      (c.resolve p (d + 1) >>= c.alongSlot slot) := by
    simp only [resolveBy, Query.node, Query.Node.map, Resolver.resolve, BodySlot.ofName?_name]
  obtain ⟨parent, mid, ks, hsteps, hks, hkeeps⟩ :=
    c.steps_of_ok hr hby (c.viewSlot_tells slot) (fun _ => rfl) (fun _ _ => rfl) h
  have hmem := Asking.mem_strategies_iff hks
  have hnone : Asking.commonStrategy ((ks.map (·.report)).filterMap id) = none ↔
      ¬ ∃ x, .descriptor x ∈ parent.toList := by
    simp only [Asking.commonStrategy_eq_none_iff, List.eq_nil_iff_forall_not_mem, hmem, not_exists]
    exact ⟨fun hnone x hx => hnone _ x ⟨hx, rfl⟩, fun hnone _ x hx => hnone x hx.1⟩
  have hranked : Asking.commonStrategy ((ks.map (·.report)).filterMap id) = some .ranked ↔
      ∃ x, .descriptor x ∈ parent.toList ∧ x.outfit.NeedsRanking slot.name x.view := by
    simp only [Asking.commonStrategy_eq_ranked_iff, hmem, Attire.Outfit.strategy_eq_ranked_iff]
  have hkept : Asking.commonStrategy ((ks.map (·.report)).filterMap id) ≠ some .ranked →
      ((c.resolve (.step slot.name isArray p) d).after run).scores = mid.scores := fun hread => by
    refine hkeeps fun y hy => c.viewSlot_keepsScores ?_
    rintro x rfl hneeds
    exact hread (hranked.2 ⟨x, hy, hneeds⟩)
  refine ⟨parent, mid, _, hsteps, namesTruly_of_field ?_ hnone hranked hkept⟩
  cases Asking.commonStrategy ((ks.map (·.report)).filterMap id) <;>
    simp [Trace.Entry.summary, Table.ofList, Table.get?, Entries.ofList, Entries.get?_insert, Entries.get?]

/-- **What is told of strategies is true.**  In whatever state the run is, and whichever resolvers the router
knows, a step that is resolved makes one entry:

* For the array form of a step to a view the entry counts the slots that the entities of the branch wear
  something in, and those among them that needed a ranking; it names the strategy of ranking if there are
  any of these.
* For a step to a slot the entry names a strategy if there is a descriptor in the branch, and that of ranking
  if the slot of one of them needed it.

If it does not name that of ranking, the score table is afterwards as it was when the branch was resolved. -/
theorem strategies_are_told_truly (c : Context) (p : Query) (d : Nat) (run : Run) (s : CandidateSet) :
    (∀ view : View, let q : Query := .step view.field true p
      (c.resolve q d).result run = .ok s →
        ∃ parent mid entry legacy coverage, c.Steps q p d run .clothing parent mid entry ∧
          c.CountsTruly view parent mid ((c.resolve q d).after run) entry legacy coverage) ∧
    ∀ (slot : BodySlot) (isArray : Bool), let q : Query := .step slot.name isArray p
      c.router.resolverFor? q.node = some .slot → (c.resolve q d).result run = .ok s →
        ∃ parent mid entry, c.Steps q p d run .slot parent mid entry ∧
          NamesTruly slot parent mid ((c.resolve q d).after run) entry :=
  ⟨fun _ => view_steps, fun _ _ => slot_steps⟩

/-- The page wears a doublet over a shirt, and boots. -/
def pagesAttire : Store :=
  let slots :=
    [("torso_upper", Json.object [("outer", .str "doublet"), ("base", .str "shirt")]),
      ("feet", .object [("outer", .str "boots")])]
  (∅ : Store).insert "page" equipmentComponent (.object [("equipped", .object slots)])

/-- The page's doublet has to be found by a ranking, his boots do not: what is told of both, and of all that is
seen of him at once, is true. -/
theorem told_of_the_pages_attire :
    let c : Context := { actor := "page", scene := { world := pagesAttire.world }, traced := true }
    let run : Run := { scores := default }
    let seen : Query := .step View.topmost.field true (.root .actor)
    let worn : Query := .step View.topmost.field false (.root .actor)
    let within := fun slot : BodySlot => Query.step slot.name false worn
    let after := fun q => (c.resolve q 0).after run
    ((c.resolve seen 0).result run = .ok (.ofList [.entity "boots", .entity "doublet"]) ∧
      ∃ parent mid entry legacy coverage, c.Steps seen (.root .actor) 0 run .clothing parent mid entry ∧
        c.CountsTruly .topmost parent mid (after seen) entry legacy coverage) ∧
    ∀ x ∈ [(BodySlot.torsoUpper, "doublet"), (.feet, "boots")],
      c.router.resolverFor? (within x.1).node = some .slot ∧
      (c.resolve (within x.1) 0).result run = .ok (.ofList [.entity x.2]) ∧
      ∃ parent mid entry, c.Steps (within x.1) worn 0 run .slot parent mid entry ∧
        NamesTruly x.1 parent mid (after (within x.1)) entry := by
  intro c run seen worn within after
  have hseen : (c.resolve seen 0).result run = .ok (.ofList [.entity "boots", .entity "doublet"]) := by
    decide +kernel
  have hwithin : ∀ x ∈ [(BodySlot.torsoUpper, "doublet"), (.feet, "boots")],
      c.router.resolverFor? (within x.1).node = some .slot ∧
      (c.resolve (within x.1) 0).result run = .ok (.ofList [.entity x.2]) := by
    decide +kernel
  refine ⟨⟨hseen, (strategies_are_told_truly c _ 0 run _).1 .topmost hseen⟩, fun x hx => ?_⟩
  obtain ⟨hroute, hresult⟩ := hwithin x hx
  exact ⟨hroute, hresult, (strategies_are_told_truly c _ 0 run _).2 x.1 false hroute hresult⟩

end Context

end EntityQuery
