import EntityQuery.Proofs.Attire.Lineup

/-!
# Layers read and contenders ranked

Some slots are looked at by reading their layers, without a ranking.  That is the same look where nothing
covers the slot from elsewhere, the items of the slot stand in the order of their layers, and none of
them is hidden or listed twice (`shown_ranking_eq_layerItems`).  Both kinds of slots that are read off
their layers are of this sort: under a view of one layer there is one item at most, and where nobody
declares anything the class of an item is that of its layer.  So the strategy changes no answer
(`shownItems_eq_shown`), and what a view shows may be told from the ranking alone.
-/

namespace EntityQuery.Attire

open Equipment (Worn)

namespace Ranked

variable (tieBreak : TieBreak)

/-- An item of the slot itself that comes first is shown alone. -/
theorem topmost_cons_direct {r : Ranked} (h : r.wornIn = none) (rs : List Ranked) :
    topmost tieBreak (r :: rs) = [r.item] := by
  simp [topmost, h]

theorem hides_eq_false {a : Ranked} (h : a.covers = false) (b : Ranked) : a.hides b = false := by
  simp [hides, h]

/-- Where none covers the slot, none is hidden. -/
theorem unhidden_eq_self {earlier : List Ranked} (he : ∀ r ∈ earlier, r.covers = false) :
    ∀ {rs : List Ranked}, (∀ r ∈ rs, r.covers = false) → unhidden earlier rs = rs
  | [],      _  => rfl
  | r :: rs, hr => by
      have hany : earlier.any (·.hides r) = false :=
        List.any_eq_false.2 fun a ha => by simp [hides_eq_false (he a ha)]
      have he' : ∀ a ∈ earlier ++ [r], a.covers = false := by
        intro a ha
        rcases List.mem_append.1 ha with ha | ha
        · exact he a ha
        · exact hr a (List.mem_of_mem_head? (List.mem_singleton.1 ha ▸ rfl))
      rw [unhidden, hany, if_neg Bool.false_ne_true,
        unhidden_eq_self he' fun a ha => hr a (List.mem_cons_of_mem r ha)]

end Ranked

namespace View

theorem picksOne_of_not_usesCoverage {view : View} (h : view.usesCoverage = false) :
    view.picksOne = true := by
  cases view <;> first | rfl | cases h

/-- A view that does not respect coverage looks at one layer. -/
theorem layer_unique_of_not_usesCoverage {view : View} (h : view.usesCoverage = false)
    {l m : Layer} (hl : view.layers.admits l) (hm : view.layers.admits m) : l = m := by
  cases view with
  | topmost | topmostNoAccessories | all => cases h
  | outer | base | underwear =>
      cases l <;> cases m <;> first
        | rfl
        | exact absurd hl (by decide)
        | exact absurd hm (by decide)

end View

namespace Outfit

variable (o : Outfit) (tieBreak : TieBreak) (slot : String) (view : View)

/-! ### Nobody declares anything -/

theorem coverageOf?_of_not_hasCoverage {o : Outfit} (h : o.hasCoverage = false) (item : ItemId) :
    o.coverageOf? item = none := by
  have hentries : o.coverage.entries = [] := by
    simpa [hasCoverage, Table.isEmpty] using h
  rw [coverageOf?, Table.get?, hentries, Entries.get?]

theorem hasCoverage_iff {o : Outfit} : o.hasCoverage ↔ ∃ item c, o.coverageOf? item = some c := by
  constructor
  · intro h
    obtain ⟨e, he⟩ : ∃ e, e ∈ o.coverage.entries := by
      refine List.exists_mem_of_ne_nil _ fun hnil => ?_
      simp [hasCoverage, Table.isEmpty, hnil] at h
    exact ⟨e.1, e.2, o.coverage.ascending.get?_of_mem he⟩
  · rintro ⟨item, c, hc⟩
    by_contra h
    rw [coverageOf?_of_not_hasCoverage (Bool.eq_false_iff.2 h)] at hc
    cases hc

theorem covers_of_not_hasCoverage {o : Outfit} (h : o.hasCoverage = false) (item : ItemId)
    (slot : String) : o.covers item slot = false := by
  rw [covers, coverageOf?_of_not_hasCoverage h]
  rfl

theorem prominence_of_not_hasCoverage {o : Outfit} (h : o.hasCoverage = false) (item : ItemId)
    (layer : Layer) : o.prominence item layer = .ofLayer layer := by
  rw [prominence, coverageOf?_of_not_hasCoverage h]

/-! ### Where a ranking is its items in order -/

theorem ranking_eq_map_direct (hcovering : o.covering slot view = [])
    (hdirect : (o.direct slot view).Pairwise (o.standing slot · ≤ o.standing slot ·)) :
    o.ranking slot view = (o.direct slot view).map (o.entry slot) := by
  rw [ranking_eq_map_sortWorn, approaching, hcovering, List.append_nil, sortWorn,
    hdirect.insertionSort_eq]

theorem items_direct :
    (o.direct slot view).map (·.item) = (o.items.occupiedIn slot view.layers).map (·.2) := by
  rw [direct, List.map_map]
  rfl

theorem topmost_map_direct :
    Ranked.topmost tieBreak ((o.direct slot view).map (o.entry slot))
      = ((o.direct slot view).map (·.item)).take 1 := by
  cases hdirect : o.direct slot view with
  | nil => rfl
  | cons w ws =>
      have hslot : w.slot = slot :=
        ((o.mem_direct slot).1 (hdirect ▸ List.mem_cons_self)).2.1
      have hentry : (o.entry slot w).wornIn = none := if_pos hslot
      rw [List.map_cons, Ranked.topmost_cons_direct tieBreak hentry]
      rfl

/-- A list without duplicates is left as it is. -/
theorem eraseDups_eq_self : ∀ {items : List ItemId}, items.Nodup → items.eraseDups = items
  | [],            _ => rfl
  | item :: items, h => by
      obtain ⟨hitem, hitems⟩ := List.nodup_cons.1 h
      have hfilter : items.filter (fun i => !i == item) = items :=
        List.filter_eq_self.2 fun i hi => by simp [ne_of_mem_of_not_mem hi hitem]
      rw [List.eraseDups_cons, hfilter, eraseDups_eq_self hitems]

theorem visible_map_direct (hcovers : ∀ w ∈ o.direct slot view, o.covers w.item slot = false)
    (hnodup : ((o.direct slot view).map (·.item)).Nodup) :
    Ranked.visible ((o.direct slot view).map (o.entry slot))
      = (o.direct slot view).map (·.item) := by
  have hentries : ∀ r ∈ (o.direct slot view).map (o.entry slot), r.covers = false := by
    intro r hr
    obtain ⟨w, hw, rfl⟩ := List.mem_map.1 hr
    exact hcovers w hw
  have hitems : ((o.direct slot view).map (o.entry slot)).map (·.item)
      = (o.direct slot view).map (·.item) := by
    rw [List.map_map]
    rfl
  rw [Ranked.visible, Ranked.unhidden_eq_self (fun _ h => absurd h List.not_mem_nil) hentries, hitems,
    eraseDups_eq_self hnodup]

/-- Reading the layers shows what the ranking does, where nothing covers the slot from elsewhere, the
items of the slot stand in order, and a view of all meets no declaration and no item twice. -/
theorem shown_ranking_eq_layerItems (hcovering : o.covering slot view = [])
    (hdirect : (o.direct slot view).Pairwise (o.standing slot · ≤ o.standing slot ·))
    (hall : view.picksOne = true ∨
      (∀ w ∈ o.direct slot view, o.covers w.item slot = false) ∧
        ((o.direct slot view).map (·.item)).Nodup) :
    Ranked.shown tieBreak view (o.ranking slot view) = o.layerItems slot view := by
  rw [ranking_eq_map_direct o slot view hcovering hdirect, Ranked.shown, layerItems, ← items_direct]
  split
  · exact o.topmost_map_direct tieBreak slot view
  · rename_i hone
    obtain ⟨hcovers, hnodup⟩ := hall.resolve_left hone
    exact o.visible_map_direct slot view hcovers hnodup

/-! ### The two sorts of slots that are read -/

/-- A view of one layer may be read. -/
theorem shown_ranking_of_not_usesCoverage (hview : view.usesCoverage = false) :
    Ranked.shown tieBreak view (o.ranking slot view) = o.layerItems slot view := by
  refine o.shown_ranking_eq_layerItems tieBreak slot view (o.covering_eq_nil slot hview) ?_
    (.inl (View.picksOne_of_not_usesCoverage hview))
  -- There are no two items to put in order.
  refine (o.pairwise_direct slot view).imp_of_mem fun {v w} hv hw hlt => ?_
  have heq : v.layer = w.layer := View.layer_unique_of_not_usesCoverage hview
    ((o.mem_direct slot).1 hv).2.2 ((o.mem_direct slot).1 hw).2.2
  exact absurd (congrArg Layer.depth heq) (Nat.ne_of_lt hlt)

/-- Where nobody declares anything, a slot may be read that holds no item twice. -/
theorem shown_ranking_of_not_hasCoverage (hcoverage : o.hasCoverage = false)
    (hnodup : ((o.items.occupiedIn slot view.layers).map (·.2)).Nodup) :
    Ranked.shown tieBreak view (o.ranking slot view) = o.layerItems slot view := by
  refine o.shown_ranking_eq_layerItems tieBreak slot view ?_ ?_ (.inr ⟨?_, ?_⟩)
  · rw [covering]
    split
    · refine List.filter_eq_nil_iff.2 fun w _ => ?_
      simp [covers_of_not_hasCoverage hcoverage]
    · rfl
  · -- The class of an item is that of its layer, so that the layers stand as the classes do.
    refine (o.pairwise_direct slot view).imp fun {v w} hlt => ?_
    have hrank : ∀ w, (o.classOf w).rank = w.layer.depth := by
      intro w
      rw [classOf, prominence_of_not_hasCoverage hcoverage, Prominence.rank_ofLayer]
    rw [standing_le_iff, hrank, hrank]
    exact .inl hlt
  · exact fun w _ => covers_of_not_hasCoverage hcoverage w.item slot
  · rw [items_direct]
    exact hnodup

/-- What a view shows of a slot is what it shows of the ranking, by whichever strategy it was found. -/
theorem shownItems_eq_shown :
    o.shownItems tieBreak slot view = Ranked.shown tieBreak view (o.ranking slot view) := by
  rw [shownItems, strategy]
  split
  · rename_i hstrategy
    split at hstrategy
    · rename_i hview
      exact (o.shown_ranking_of_not_usesCoverage tieBreak slot view (by simpa using hview)).symm
    · split at hstrategy
      · rename_i hread
        obtain ⟨hlength, hcoverage⟩ := hread
        obtain ⟨x, hx⟩ := List.length_eq_one_iff.1 hlength
        refine (o.shown_ranking_of_not_hasCoverage tieBreak slot view (by simpa using hcoverage)
          ?_).symm
        rw [hx]
        exact List.nodup_singleton x.2
      · cases hstrategy
  · rfl

/-! ### The fast path -/

/-- **Reading and ranking agree.**  Under a view of one layer, and where nobody declares anything and the
slot holds no item twice at the layers of the view, the layers read show what the ranking shows.  Hence
a look at a slot shows what the ranking shows, whatever the strategy and the states of the table. -/
theorem layerItems_agree_with_ranking (l m : Ledger) :
    (view ∈ [.outer, .base, .underwear] ∨
        o.hasCoverage = false ∧ ((o.items.occupiedIn slot view.layers).map (·.2)).Nodup →
      o.layerItems slot view = (o.rankedItems tieBreak slot view l).1) ∧
    (o.lookAtSlot tieBreak slot view l).1.items = (o.rankedItems tieBreak slot view m).1 := by
  rw [o.rankedItems_shows tieBreak slot view l, o.rankedItems_shows tieBreak slot view m,
    o.lookAtSlot_shows tieBreak slot view l]
  refine ⟨fun h => ?_, o.shownItems_eq_shown tieBreak slot view⟩
  rcases h with hview | ⟨hcoverage, hnodup⟩
  · have huses : view.usesCoverage = false := by
      simp only [List.mem_cons, List.not_mem_nil, or_false] at hview
      rcases hview with rfl | rfl | rfl <;> rfl
    exact (o.shown_ranking_of_not_usesCoverage tieBreak slot view huses).symm
  · exact (o.shown_ranking_of_not_hasCoverage tieBreak slot view hcoverage hnodup).symm

end Outfit

end EntityQuery.Attire
