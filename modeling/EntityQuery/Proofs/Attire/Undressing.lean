import EntityQuery.Proofs.Attire.Hiding
import EntityQuery.Proofs.Attire.Locality
import EntityQuery.Proofs.Attire.Topmost

/-!
# Taking hidden items off

When some of what is worn is taken off, and the declarations stay, the others stand as they did before
(`Outfit.TakesOff.lineFor_eq`).  Whoever decides on what is seen of a slot is seen there: the foremost, those
that tie with it, and those up to the first declaration.  So items that a view does not show in a slot may be
taken off, and it shows the same there as before (`hidden_items_may_be_taken_off`), even if they hid others,
or were the reason why the slot was ranked.
-/

namespace EntityQuery.Attire

open Equipment (Worn)

/-- The part of a list up to the first element with `p` is left by a selection that leaves all of it. -/
theorem take_findIdx_filter {α : Type} {p keep : α → Bool} :
    ∀ {xs : List α}, (∀ x ∈ xs.take (xs.findIdx p + 1), keep x) →
      (xs.filter keep).take ((xs.filter keep).findIdx p + 1) = xs.take (xs.findIdx p + 1)
  | [],      _ => rfl
  | x :: xs, h => by
      have hx : keep x := h x (by simp)
      rw [List.filter_cons_of_pos hx, List.findIdx_cons, List.findIdx_cons]
      cases hp : p x with
      | true  => simp
      | false =>
          rw [List.findIdx_cons, hp, cond_false, List.take_succ_cons] at h
          rw [cond_false, cond_false, List.take_succ_cons, List.take_succ_cons,
            take_findIdx_filter fun y hy => h y (List.mem_cons_of_mem x hy)]

/-! ### Less equipment -/

namespace Equipment

/-- What is left when the worn items with `gone` are taken off. -/
def without (e : Equipment) (gone : Worn → Bool) : Equipment :=
  ofList (e.toList.filter fun w => !gone w)

theorem mem_toList_without (e : Equipment) (gone : Worn → Bool) {w : Worn} :
    w ∈ (e.without gone).toList ↔ w ∈ e.toList ∧ ¬ gone w := by
  have hplaces : (e.toList.filter fun w => !gone w).Pairwise (·.place ≠ ·.place) :=
    (e.pairwise_toList.filter _).imp ne_of_lt
  rw [without, mem_toList_ofList hplaces, List.mem_filter, Bool.not_eq_true', Bool.not_eq_true]

end Equipment

namespace Outfit

/-- `o'` is what is left of `o` when the worn items with `gone` are taken off.  What the items declare stays
on record. -/
structure TakesOff (o : Outfit) (gone : Worn → Bool) (o' : Outfit) : Prop where
  coverage : o'.coverage = o.coverage
  worn : ∀ w, w ∈ o'.items.toList ↔ w ∈ o.items.toList ∧ ¬ gone w

/-- The outfit without the worn items with `gone`. -/
def without (o : Outfit) (gone : Worn → Bool) : Outfit :=
  { o with items := o.items.without gone }

theorem takesOff_without (o : Outfit) (gone : Worn → Bool) : o.TakesOff gone (o.without gone) :=
  ⟨rfl, fun _ => o.items.mem_toList_without gone⟩

/-! ### Those who are left -/

namespace TakesOff

variable {o o' : Outfit} {gone : Worn → Bool} {slot : String} {view : View}

theorem coverageOf?_eq (h : o.TakesOff gone o') (item : ItemId) :
    o'.coverageOf? item = o.coverageOf? item := by
  rw [coverageOf?, coverageOf?, h.coverage]

theorem covers_eq (h : o.TakesOff gone o') (item : ItemId) : o'.covers item slot = o.covers item slot := by
  rw [covers, covers, h.coverageOf?_eq]

theorem classOf_eq (h : o.TakesOff gone o') (w : Worn) : o'.classOf w = o.classOf w := by
  rw [classOf, classOf, prominence, prominence, h.coverageOf?_eq]

theorem approaches_iff (h : o.TakesOff gone o') {w : Worn} :
    o'.Approaches slot view w ↔ o.Approaches slot view w ∧ ¬ gone w := by
  have hworn := h.worn w
  rw [Equipment.mem_toList_iff, Equipment.mem_toList_iff] at hworn
  constructor
  · rintro ⟨hw, hadmits, hreaches⟩
    rw [h.covers_eq] at hreaches
    exact ⟨⟨(hworn.1 hw).1, hadmits, hreaches⟩, (hworn.1 hw).2⟩
  · rintro ⟨⟨hw, hadmits, hreaches⟩, hgone⟩
    rw [← h.covers_eq] at hreaches
    exact ⟨hworn.2 ⟨hw, hgone⟩, hadmits, hreaches⟩

/-- Those who are left stand as before. -/
theorem lineFor_eq (h : o.TakesOff gone o') :
    o'.lineFor slot view = (o.lineFor slot view).filter fun w => !gone w := by
  refine o.eq_of_pairwise_standing slot ?_ ((o.pairwise_lineFor slot view).filter _) fun w => ?_
  · refine (o'.pairwise_lineFor slot view).imp fun {v w} hlt => ?_
    rwa [standing_congr (h.classOf_eq v), standing_congr (h.classOf_eq w)] at hlt
  · rw [mem_lineFor, h.approaches_iff, List.mem_filter, mem_lineFor, Bool.not_eq_true', Bool.not_eq_true]

end TakesOff

/-! ### Those who decide are shown -/

section Selection

variable (o : Outfit) (tieBreak : TieBreak) (slot : String) {keep : Worn → Bool} {ws : List Worn}

theorem item_mem_topmost (w : Worn) (ws : List Worn) :
    w.item ∈ Ranked.topmost tieBreak ((w :: ws).map (o.entry slot)) :=
  List.mem_of_mem_head? (Ranked.head?_topmost _)

theorem topmost_map_filter (hws : ws.Pairwise (o.standing slot · < o.standing slot ·))
    (hkeep : ∀ w ∈ ws, w.item ∈ Ranked.topmost tieBreak (ws.map (o.entry slot)) → keep w) :
    Ranked.topmost tieBreak ((ws.filter keep).map (o.entry slot))
      = Ranked.topmost tieBreak (ws.map (o.entry slot)) := by
  cases ws with
  | nil => rfl
  | cons w ws =>
      have hfilter : (w :: ws).filter keep = w :: ws.filter keep :=
        List.filter_cons_of_pos (hkeep w List.mem_cons_self (o.item_mem_topmost tieBreak slot w ws))
      by_cases hslot : w.slot = slot
      · rw [hfilter, topmost_map_of_direct hslot, topmost_map_of_direct hslot]
      · cases tieBreak with
        | slotOrder  => rw [hfilter, topmost_map_slotOrder, topmost_map_slotOrder]
        | includeAll =>
            have hsorted := hws.filter keep
            rw [hfilter] at hsorted
            rw [topmost_map_includeAll hslot hws] at hkeep
            -- Whoever ties with the first contender is shown.
            have hties : ∀ v ∈ w :: ws,
                (decide (o.Ties slot w v) && keep v) = decide (o.Ties slot w v) := by
              intro v hv
              by_cases htie : o.Ties slot w v
              · have hmem : v ∈ (w :: ws).filter (o.Ties slot w ·) :=
                  List.mem_filter.2 ⟨hv, decide_eq_true htie⟩
                rw [hkeep v hv (List.mem_eraseDups.2 (List.mem_map_of_mem hmem)), Bool.and_true]
              · rw [decide_eq_false htie, Bool.false_and]
            rw [hfilter, topmost_map_includeAll hslot hsorted, topmost_map_includeAll hslot hws,
              ← hfilter, List.filter_filter, List.filter_congr hties]

theorem visible_map_filter (hws : ws.Pairwise (o.standing slot · < o.standing slot ·))
    (hkeep : ∀ w ∈ ws, w.item ∈ Ranked.visible (ws.map (o.entry slot)) → keep w) :
    Ranked.visible ((ws.filter keep).map (o.entry slot)) = Ranked.visible (ws.map (o.entry slot)) := by
  rw [o.visible_map slot hws] at hkeep ⊢
  rw [o.visible_map slot (hws.filter keep), take_findIdx_filter fun w hw => ?_]
  exact hkeep w (List.mem_of_mem_take hw) (List.mem_eraseDups.2 (List.mem_map_of_mem hw))

/-- A selection that leaves everyone who is shown changes nothing of what is shown. -/
theorem shown_map_filter (view : View) (hws : ws.Pairwise (o.standing slot · < o.standing slot ·))
    (hkeep : ∀ w ∈ ws, w.item ∈ Ranked.shown tieBreak view (ws.map (o.entry slot)) → keep w) :
    Ranked.shown tieBreak view ((ws.filter keep).map (o.entry slot))
      = Ranked.shown tieBreak view (ws.map (o.entry slot)) := by
  rw [Ranked.shown] at hkeep ⊢
  rw [Ranked.shown]
  split at hkeep
  · rename_i hone
    rw [if_pos hone, if_pos hone]
    exact o.topmost_map_filter tieBreak slot hws hkeep
  · rename_i hall
    rw [if_neg hall, if_neg hall]
    exact o.visible_map_filter slot hws hkeep

end Selection

variable {o o' : Outfit} {tieBreak : TieBreak} {slot : String} {view : View} {gone : Worn → Bool}

theorem TakesOff.shownItems_eq (h : o.TakesOff gone o')
    (hhidden : ∀ w ∈ o.items.toList, gone w → w.item ∉ o.shownItems tieBreak slot view) :
    o'.shownItems tieBreak slot view = o.shownItems tieBreak slot view := by
  have hentries : ∀ ws : List Worn, ws.map (o'.entry slot) = ws.map (o.entry slot) :=
    fun ws => List.map_congr_left fun w _ => entry_congr (h.classOf_eq w) (h.covers_eq w.item)
  rw [o.shownItems_eq_shown_lineFor] at hhidden ⊢
  rw [o'.shownItems_eq_shown_lineFor, hentries, h.lineFor_eq]
  refine o.shown_map_filter tieBreak slot view (o.pairwise_lineFor slot view) fun w hw hshown => ?_
  have hworn := Equipment.mem_toList_iff.2 ((o.mem_lineFor slot view).1 hw).worn
  rw [Bool.not_eq_true']
  exact Bool.eq_false_iff.2 fun hgone => hhidden w hworn hgone hshown

/-- **Hidden items do not matter.**  Whatever worn items are taken off, if none of them is an item that a view
shows of a slot, the view shows the same of the slot as before. -/
theorem hidden_items_may_be_taken_off (l m : Ledger)
    (hhidden : ∀ w ∈ o.items.toList, gone w → w.item ∉ (o.lookAtSlot tieBreak slot view l).1.items) :
    o.TakesOff gone (o.without gone) ∧
    ∀ o', o.TakesOff gone o' →
      (o'.lookAtSlot tieBreak slot view m).1.items = (o.lookAtSlot tieBreak slot view l).1.items := by
  rw [items_lookAtSlot] at hhidden
  refine ⟨o.takesOff_without gone, fun o' h => ?_⟩
  rw [items_lookAtSlot, items_lookAtSlot, h.shownItems_eq hhidden]

/-- Of the coat, the chaps and the briefs, the view of all shows the chaps alone.  They are left when the coat,
which covers the slot as well, and the briefs are taken off. -/
theorem chaps_without_coat_and_briefs :
    let gone : Worn → Bool := fun w => w.item ≠ "chaps"
    (∀ w ∈ coatAndChaps.items.toList, gone w →
      w.item ∉ (coatAndChaps.lookAtSlot .includeAll "torso_lower" .all { scores := default }).1.items) ∧
    ((coatAndChaps.without gone).lookAtSlot .includeAll "torso_lower" .all { scores := default }).1.items
      = (coatAndChaps.lookAtSlot .includeAll "torso_lower" .all { scores := default }).1.items := by
  intro gone
  have hhidden : ∀ w ∈ coatAndChaps.items.toList, gone w →
      w.item ∉ (coatAndChaps.lookAtSlot .includeAll "torso_lower" .all { scores := default }).1.items := by
    decide
  obtain ⟨htakesOff, hshown⟩ :=
    hidden_items_may_be_taken_off { scores := default } { scores := default } hhidden
  exact ⟨hhidden, hshown _ htakesOff⟩

end Outfit

end EntityQuery.Attire
