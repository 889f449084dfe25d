import EntityQuery.Proofs.Attire.Reading

/-!
# The topmost items of a slot

A view that picks one item and respects coverage shows the foremost contender for a slot, the one that
stands before all others (`Outfit.IsForemost`); there is one as soon as there is a contender.  If the
foremost contender covers the slot from elsewhere and ties are not broken, it shows all that cover the
slot at its class and layer, by the name of the slot they are worn in (`Outfit.tied`,
`topmost_shows_foremost`).
-/

namespace EntityQuery.Attire

open Equipment (Worn)

/-- On a list on which `p` holds of all that come before one of which it holds. -/
theorem takeWhile_eq_filter {α : Type} {p : α → Bool} :
    ∀ {xs : List α}, xs.Pairwise (fun a b => p b → p a) → xs.takeWhile p = xs.filter p
  | [],      _ => rfl
  | x :: xs, h => by
      obtain ⟨hx, hxs⟩ := List.pairwise_cons.1 h
      by_cases hp : p x
      · rw [List.takeWhile_cons_of_pos hp, List.filter_cons_of_pos hp, takeWhile_eq_filter hxs]
      · rw [List.takeWhile_cons_of_neg hp, List.filter_cons_of_neg hp]
        exact (List.filter_eq_nil_iff.2 fun y hy hpy => hp (hx y hy hpy)).symm

/-- The layers of garments. -/
def Layer.garments : List Layer :=
  [outer, base, underwear]

theorem head?_eraseDups (items : List ItemId) : items.eraseDups.head? = items.head? := by
  cases items with
  | nil        => rfl
  | cons i _   => rw [List.eraseDups_cons]; rfl

namespace Ranked

variable {tieBreak : TieBreak}

/-- Whoever comes first is shown first. -/
theorem head?_topmost (rs : List Ranked) : (topmost tieBreak rs).head? = rs.head?.map (·.item) := by
  cases rs with
  | nil => rfl
  | cons r rs =>
      rw [topmost]
      split
      · exact head?_eraseDups _
      · rfl

theorem topmost_eq_nil_iff {rs : List Ranked} : topmost tieBreak rs = [] ↔ rs = [] := by
  rw [← List.head?_eq_none_iff, head?_topmost, Option.map_eq_none_iff, List.head?_eq_none_iff]

end Ranked

namespace Outfit

variable (o : Outfit) (tieBreak : TieBreak) (slot : String)

/-- `w` is a contender that stands before all others. -/
structure IsForemost (layers : List Layer) (w : Worn) : Prop where
  contends : o.Contends slot layers w
  first : ∀ v, o.Contends slot layers v → o.standing slot w ≤ o.standing slot v

theorem lineup_eq_nil_iff (layers : List Layer) :
    o.lineup slot layers = [] ↔ ∀ w, ¬ o.Contends slot layers w := by
  simp only [List.eq_nil_iff_forall_not_mem, mem_lineup]

/-- The foremost contender heads the lineup. -/
theorem isForemost_iff {layers : List Layer} {w : Worn} :
    o.IsForemost slot layers w ↔ ∃ ws, o.lineup slot layers = w :: ws := by
  constructor
  · rintro ⟨hw, hfirst⟩
    cases hlineup : o.lineup slot layers with
    | nil => exact absurd hw ((o.lineup_eq_nil_iff slot layers).1 hlineup w)
    | cons v vs =>
        have hv : o.Contends slot layers v :=
          (o.mem_lineup slot).1 (hlineup ▸ List.mem_cons_self)
        have hmem : w ∈ v :: vs := hlineup ▸ (o.mem_lineup slot).2 hw
        rcases List.mem_cons.1 hmem with rfl | hmem
        · exact ⟨vs, rfl⟩
        · have hsorted := hlineup ▸ o.pairwise_lineup slot layers
          have hlt := (List.pairwise_cons.1 hsorted).1 w hmem
          exact absurd (hfirst v hv) (not_le_of_gt hlt)
  · rintro ⟨ws, hlineup⟩
    refine ⟨(o.mem_lineup slot).1 (hlineup ▸ List.mem_cons_self), fun v hv => ?_⟩
    have hmem : v ∈ w :: ws := hlineup ▸ (o.mem_lineup slot).2 hv
    rcases List.mem_cons.1 hmem with rfl | hmem
    · exact le_refl _
    · have hsorted := hlineup ▸ o.pairwise_lineup slot layers
      exact le_of_lt ((List.pairwise_cons.1 hsorted).1 v hmem)

theorem exists_isForemost {layers : List Layer} (h : ∃ w, o.Contends slot layers w) :
    ∃ w, o.IsForemost slot layers w := by
  obtain ⟨w, hw⟩ := h
  cases hlineup : o.lineup slot layers with
  | nil => exact absurd hw ((o.lineup_eq_nil_iff slot layers).1 hlineup w)
  | cons v vs => exact ⟨v, (o.isForemost_iff slot).2 ⟨vs, hlineup⟩⟩

/-! ### Ties -/

/-- `v` covers the slot from elsewhere, at the class and layer of `w`. -/
structure Ties (w v : Worn) : Prop where
  elsewhere : v.slot ≠ slot
  classOf : o.classOf v = o.classOf w
  layer : v.layer = w.layer

instance (w v : Worn) : Decidable (o.Ties slot w v) :=
  decidable_of_iff (v.slot ≠ slot ∧ o.classOf v = o.classOf w ∧ v.layer = w.layer)
    ⟨fun h => ⟨h.1, h.2.1, h.2.2⟩, fun h => ⟨h.elsewhere, h.classOf, h.layer⟩⟩

/-- The contenders that tie with `w`, as they stand. -/
def tied (layers : List Layer) (w : Worn) : List Worn :=
  (o.lineup slot layers).filter (o.Ties slot w ·)

theorem mem_tied {layers : List Layer} {w v : Worn} :
    v ∈ o.tied slot layers w ↔ o.Contends slot layers v ∧ o.Ties slot w v := by
  rw [tied, List.mem_filter, mem_lineup, decide_eq_true_iff]

/-- Contenders that tie stand by the names of their slots. -/
theorem slot_lt_of_ties {w u v : Worn} (hu : o.Ties slot w u) (hv : o.Ties slot w v)
    (h : o.standing slot u < o.standing slot v) : u.slot < v.slot := by
  by_contra hslot
  refine absurd h (not_lt_of_ge ((o.standing_le_iff slot).2 (.inr ⟨?_, .inr ⟨?_, .inr ⟨?_, ?_⟩⟩⟩)))
  · rw [hu.classOf, hv.classOf]
  · rw [hu.layer, hv.layer]
  · rw [decide_eq_true hu.elsewhere, decide_eq_true hv.elsewhere]
  · exact le_of_not_gt hslot

theorem pairwise_tied (layers : List Layer) (w : Worn) :
    (o.tied slot layers w).Pairwise (·.slot < ·.slot) := by
  refine ((o.pairwise_lineup slot layers).filter _).imp_of_mem fun {u v} hu hv h => ?_
  exact o.slot_lt_of_ties slot ((o.mem_tied slot).1 hu).2 ((o.mem_tied slot).1 hv).2 h

/-- Who stands between a covering contender and one that ties with it, ties with it, too. -/
theorem ties_of_between {w u v : Worn} (hw : w.slot ≠ slot)
    (hwu : o.standing slot w ≤ o.standing slot u) (huv : o.standing slot u ≤ o.standing slot v)
    (hv : o.Ties slot w v) : o.Ties slot w u := by
  -- Class and layer are caught between equals, and then a direct contender would come too late.
  have h₁ := (o.standing_le_iff slot).1 hwu
  have h₂ := (o.standing_le_iff slot).1 huv
  rw [hv.classOf, hv.layer] at h₂
  have hrank : (o.classOf u).rank = (o.classOf w).rank := by omega
  have hdepth : u.layer.depth = w.layer.depth := by omega
  refine ⟨fun hslot => ?_, Prominence.rank_injective hrank, Layer.depth_injective hdepth⟩
  have hlt : true < false := by simpa [hrank, hdepth, hw, hslot] using h₁
  exact absurd hlt (by decide)

/-! ### What is shown -/

variable {o tieBreak slot}

/-- A covering entry has the score of `w` just if it ties with `w`. -/
theorem entry_tied_iff {w v : Worn} :
    (o.entry slot v).score = (o.entry slot w).score ∧ (o.entry slot v).wornIn.isSome ↔
      o.Ties slot w v := by
  have hscore : (o.entry slot v).score = (o.entry slot w).score ↔
      (o.classOf v).rank = (o.classOf w).rank ∧ v.layer.depth = w.layer.depth :=
    Prominence.score_eq_iff
  have hwornIn : (o.entry slot v).wornIn.isSome ↔ v.slot ≠ slot := by
    by_cases h : v.slot = slot <;> simp [entry, contender, Ranked.ofContender, h]
  rw [hscore, hwornIn]
  constructor
  · rintro ⟨⟨hrank, hdepth⟩, hslot⟩
    exact ⟨hslot, Prominence.rank_injective hrank, Layer.depth_injective hdepth⟩
  · rintro ⟨hslot, hclass, hlayer⟩
    exact ⟨⟨congrArg _ hclass, congrArg _ hlayer⟩, hslot⟩

theorem ties_self {w : Worn} (hw : w.slot ≠ slot) : o.Ties slot w w :=
  ⟨hw, rfl, rfl⟩

theorem topmost_map_slotOrder (w : Worn) (ws : List Worn) :
    Ranked.topmost .slotOrder ((w :: ws).map (o.entry slot)) = [w.item] := by
  rw [List.map_cons, Ranked.topmost, if_neg (by rintro ⟨⟨⟩, -⟩)]
  rfl

theorem topmost_map_of_direct {w : Worn} (hw : w.slot = slot) (ws : List Worn) :
    Ranked.topmost tieBreak ((w :: ws).map (o.entry slot)) = [w.item] :=
  Ranked.topmost_cons_direct tieBreak (if_pos hw) _

/-- A lineup that a covering contender heads shows all that tie with it. -/
theorem topmost_map_includeAll {w : Worn} (hw : w.slot ≠ slot) {ws : List Worn}
    (hws : (w :: ws).Pairwise (o.standing slot · < o.standing slot ·)) :
    Ranked.topmost .includeAll ((w :: ws).map (o.entry slot))
      = (((w :: ws).filter (o.Ties slot w ·)).map (·.item)).eraseDups := by
  obtain ⟨hfirst, hsorted⟩ := List.pairwise_cons.1 hws
  have hwornIn : (o.entry slot w).wornIn.isSome :=
    (entry_tied_iff.2 (ties_self hw)).2
  have htest : (fun r : Ranked => decide (r.score = (o.entry slot w).score ∧ r.wornIn.isSome))
      ∘ o.entry slot = fun v => decide (o.Ties slot w v) := by
    funext v
    exact decide_eq_decide.2 entry_tied_iff
  -- What ties with the first contender follows it without a gap.
  have hbetween : ws.Pairwise fun u v => decide (o.Ties slot w v) → decide (o.Ties slot w u) := by
    refine hsorted.imp_of_mem fun {u v} hu _ huv hv => decide_eq_true ?_
    exact o.ties_of_between slot hw (le_of_lt (hfirst u hu)) (le_of_lt huv) (of_decide_eq_true hv)
  rw [List.map_cons, Ranked.topmost, if_pos ⟨rfl, hwornIn⟩, List.takeWhile_map, htest,
    takeWhile_eq_filter hbetween,
    List.filter_cons_of_pos (p := fun v => o.Ties slot w v) (decide_eq_true (ties_self hw)),
    List.map_cons]
  dsimp only
  rw [List.map_map]
  rfl

variable (o tieBreak slot)

theorem shownItems_topmost {view : View} (hview : view = .topmost ∨ view = .topmostNoAccessories) :
    o.shownItems tieBreak slot view
      = Ranked.topmost tieBreak ((o.lineup slot Layer.garments).map (o.entry slot)) := by
  rw [shownItems_eq_shown]
  rcases hview with rfl | rfl
  · rw [ranking_eq_map_lineup o slot rfl]
    rfl
  · rw [ranking_eq_map_lineup o slot rfl]
    rfl

/-- **The topmost item of a slot is its foremost contender.**  A view that picks one item and respects
coverage shows nothing just if nothing contends for the slot at a layer of garments.  Otherwise there is
a foremost contender; its item is shown alone, unless it covers the slot from elsewhere and ties are not
broken: then the items of all contenders that tie with it are shown, by the names of their slots. -/
theorem topmost_shows_foremost {view : View} (hview : view = .topmost ∨ view = .topmostNoAccessories)
    (l : Ledger) :
    ((o.lookAtSlot tieBreak slot view l).1.items = [] ↔ ∀ w, ¬ o.Contends slot Layer.garments w) ∧
    ((∃ w, o.Contends slot Layer.garments w) → ∃ w, o.IsForemost slot Layer.garments w) ∧
    ∀ w, o.IsForemost slot Layer.garments w →
      (tieBreak = .slotOrder ∨ w.slot = slot →
        (o.lookAtSlot tieBreak slot view l).1.items = [w.item]) ∧
      (tieBreak = .includeAll → w.slot ≠ slot →
        ∃ ties : List Worn, ties.Pairwise (·.slot < ·.slot) ∧
          (∀ v, v ∈ ties ↔ o.Contends slot Layer.garments v ∧ v.slot ≠ slot ∧
            o.classOf v = o.classOf w ∧ v.layer = w.layer) ∧
          (o.lookAtSlot tieBreak slot view l).1.items = (ties.map (·.item)).eraseDups) := by
  have hshown : (o.lookAtSlot tieBreak slot view l).1.items
      = Ranked.topmost tieBreak ((o.lineup slot Layer.garments).map (o.entry slot)) := by
    rw [o.lookAtSlot_shows tieBreak slot view l]
    exact o.shownItems_topmost tieBreak slot hview
  rw [hshown]
  refine ⟨?_, o.exists_isForemost slot, fun w hw => ?_⟩
  · rw [Ranked.topmost_eq_nil_iff, List.map_eq_nil_iff, lineup_eq_nil_iff]
  · obtain ⟨ws, hlineup⟩ := (o.isForemost_iff slot).1 hw
    have hsorted := o.pairwise_lineup slot Layer.garments
    rw [hlineup] at hsorted ⊢
    refine ⟨?_, ?_⟩
    · rintro (rfl | hslot)
      · exact topmost_map_slotOrder w ws
      · exact topmost_map_of_direct hslot ws
    · rintro rfl hslot
      refine ⟨o.tied slot Layer.garments w, o.pairwise_tied slot _ w, fun v => ?_, ?_⟩
      · rw [mem_tied]
        exact and_congr_right fun _ => ⟨fun h => ⟨h.elsewhere, h.classOf, h.layer⟩,
          fun h => ⟨h.1, h.2.1, h.2.2⟩⟩
      · rw [topmost_map_includeAll hslot hsorted, tied, hlineup]

/-- A coat and chaps, both reaching down over what is worn below. -/
def coatAndChaps : Outfit where
  items := .ofList [⟨"torso_upper", .outer, "coat"⟩, ⟨"legs", .outer, "chaps"⟩,
    ⟨"torso_lower", .underwear, "briefs"⟩]
  coverage := .ofList
    [("coat", ⟨["torso_lower"], .outer⟩), ("chaps", ⟨["torso_lower"], .outer⟩)]

/-- Of the two, the chaps stand first, and they alone are shown if ties are broken. -/
theorem coatAndChaps_shows_chaps :
    coatAndChaps.IsForemost "torso_lower" Layer.garments ⟨"legs", .outer, "chaps"⟩ ∧
    (coatAndChaps.lookAtSlot .slotOrder "torso_lower" .topmost { scores := default }).1.items
      = ["chaps"] := by
  have hforemost : coatAndChaps.IsForemost "torso_lower" Layer.garments ⟨"legs", .outer, "chaps"⟩ :=
    (coatAndChaps.isForemost_iff "torso_lower").2 ⟨_, rfl⟩
  obtain ⟨-, -, hshows⟩ := coatAndChaps.topmost_shows_foremost .slotOrder "torso_lower" (.inl rfl)
    { scores := default }
  exact ⟨hforemost, (hshows _ hforemost).1 (.inl rfl)⟩

end Outfit

end EntityQuery.Attire
