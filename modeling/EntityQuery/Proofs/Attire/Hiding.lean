import EntityQuery.Proofs.Attire.Reading

/-!
# What is visible of a slot

The view of all shows each contender that no earlier one hides.  Who stands earlier is at least as
prominent (`atLeast_of_standing_lt`), so one that declares to cover the slot hides all who come after it,
but for entries of its own item; and that item is shown already.  Hence the items shown are those of the
lineup up to the first contender that declares to cover the slot, and of the whole lineup if there is
none (`all_shows_lineup_prefix`).
-/

namespace EntityQuery.Attire

open Equipment (Worn)

/-- What is listed already is not listed again. -/
theorem eraseDups_append_of_subset {xs ys : List ItemId} (h : ∀ y ∈ ys, y ∈ xs) :
    (xs ++ ys).eraseDups = xs.eraseDups := by
  have hrest : ys.removeAll xs = [] := List.filter_eq_nil_iff.2 fun y hy => by simp [h y hy]
  rw [List.eraseDups_append, hrest, List.eraseDups_nil, List.append_nil]

namespace Ranked

theorem hides_iff {a b : Ranked} :
    a.hides b ↔ a.covers ∧ a.item ≠ b.item ∧ a.prominence.atLeast b.prominence := by
  rw [hides, decide_eq_true_iff]

/-- Behind a contender that covers the slot, only its own item is not hidden. -/
theorem item_eq_of_mem_unhidden {k : Ranked} (hcovers : k.covers) :
    ∀ {earlier rs : List Ranked}, k ∈ earlier → (∀ r ∈ rs, k.prominence.atLeast r.prominence) →
      ∀ r ∈ unhidden earlier rs, r.item = k.item
  | earlier, [],      _,  _,  r, hr => absurd hr List.not_mem_nil
  | earlier, s :: rs, hk, hrs, r, hr => by
      have ih := item_eq_of_mem_unhidden hcovers (List.mem_append_left [s] hk)
        (fun r hr => hrs r (List.mem_cons_of_mem s hr)) r
      rw [unhidden] at hr
      split at hr
      · exact ih hr
      · rename_i hany
        rcases List.mem_cons.1 hr with rfl | hr
        · by_contra hne
          refine hany (List.any_eq_true.2 ⟨k, hk, hides_iff.2 ⟨hcovers, fun heq => hne heq.symm, ?_⟩⟩)
          exact hrs r List.mem_cons_self
        · exact ih hr

/-- The contenders up to the first one that covers the slot are not hidden, and those behind it add no
item. -/
theorem unhidden_eq_take_append :
    ∀ {earlier rs : List Ranked}, (∀ r ∈ earlier, r.covers = false) →
      rs.Pairwise (fun a b => a.prominence.atLeast b.prominence) →
      ∃ rest, unhidden earlier rs = rs.take (rs.findIdx (·.covers) + 1) ++ rest ∧
        ∀ r ∈ rest, r.item ∈ (rs.take (rs.findIdx (·.covers) + 1)).map (·.item)
  | earlier, [],      _,  _  => ⟨[], rfl, fun r hr => absurd hr List.not_mem_nil⟩
  | earlier, s :: rs, he, hrs => by
      obtain ⟨hs, hrs⟩ := List.pairwise_cons.1 hrs
      have hany : earlier.any (·.hides s) = false :=
        List.any_eq_false.2 fun a ha => by simp [hides_eq_false (he a ha)]
      rw [unhidden, hany, if_neg Bool.false_ne_true, List.findIdx_cons]
      cases hcovers : s.covers with
      | true =>
          -- Whatever is left unhidden behind `s` is of the item of `s`.
          refine ⟨unhidden (earlier ++ [s]) rs, by simp, fun r hr => ?_⟩
          have hitem := item_eq_of_mem_unhidden hcovers
            (List.mem_append_right earlier List.mem_cons_self) hs r hr
          simp [hitem]
      | false =>
          -- `s` does not cover the slot either, and the rest starts anew.
          have he' : ∀ r ∈ earlier ++ [s], r.covers = false := by
            intro r hr
            rcases List.mem_append.1 hr with hr | hr
            · exact he r hr
            · rw [List.mem_singleton.1 hr, hcovers]
          obtain ⟨rest, hrest, hitems⟩ := unhidden_eq_take_append he' hrs
          refine ⟨rest, ?_, fun r hr => ?_⟩
          · rw [hrest, cond_false, List.take_succ_cons, List.cons_append]
          · rw [cond_false, List.take_succ_cons, List.map_cons]
            exact List.mem_cons_of_mem _ (hitems r hr)

/-- Among contenders by class, those are visible up to the first one that covers the slot. -/
theorem visible_eq_take {rs : List Ranked}
    (hrs : rs.Pairwise fun a b => a.prominence.atLeast b.prominence) :
    visible rs = ((rs.take (rs.findIdx (·.covers) + 1)).map (·.item)).eraseDups := by
  obtain ⟨rest, hrest, hitems⟩ :=
    unhidden_eq_take_append (fun r hr => absurd hr List.not_mem_nil) hrs
  rw [visible, hrest, List.map_append]
  refine eraseDups_append_of_subset fun item hitem => ?_
  obtain ⟨r, hr, rfl⟩ := List.mem_map.1 hitem
  exact hitems r hr

end Ranked

namespace Outfit

variable (o : Outfit) (tieBreak : TieBreak) (slot : String)

/-- Who stands earlier is at least as prominent. -/
theorem atLeast_of_standing_lt {v w : Worn} (h : o.standing slot v < o.standing slot w) :
    (o.classOf v).atLeast (o.classOf w) := by
  rw [Prominence.atLeast_iff]
  rcases (o.standing_le_iff slot).1 (le_of_lt h) with hlt | ⟨heq, -⟩
  · exact le_of_lt hlt
  · exact le_of_eq heq

/-- Of those who stand in order, the ones up to the first declaration are visible. -/
theorem visible_map {ws : List Worn} (hws : ws.Pairwise (o.standing slot · < o.standing slot ·)) :
    Ranked.visible (ws.map (o.entry slot))
      = ((ws.take (ws.findIdx (fun w => o.covers w.item slot) + 1)).map (·.item)).eraseDups := by
  have hsorted : (ws.map (o.entry slot)).Pairwise fun a b => a.prominence.atLeast b.prominence :=
    List.pairwise_map.2 (hws.imp (o.atLeast_of_standing_lt slot))
  rw [Ranked.visible_eq_take hsorted, List.findIdx_map, ← List.map_take, List.map_map]
  rfl

theorem shownItems_all :
    o.shownItems tieBreak slot .all
      = (((o.lineup slot Layer.all).take
          ((o.lineup slot Layer.all).findIdx (fun w => o.covers w.item slot) + 1)).map
            (·.item)).eraseDups := by
  have hranking : o.ranking slot .all = (o.lineup slot Layer.all).map (o.entry slot) := by
    rw [ranking_eq_map_lineup o slot rfl]
    rfl
  rw [shownItems_eq_shown, hranking]
  exact o.visible_map slot (o.pairwise_lineup slot Layer.all)

/-- **All that is visible of a slot is its lineup up to the first declaration.**  Line up the contenders
for a slot over all layers.  Who stands earlier is at least as prominent, so that one who declares to
cover the slot hides everyone of another item behind it.  The view of all shows the items up to the
first one who declares to cover the slot, all if there is none, each once and in this order. -/
theorem all_shows_lineup_prefix (l : Ledger) :
    ∃ C : List Worn, C.Pairwise (o.standing slot · < o.standing slot ·) ∧
      (∀ w, w ∈ C ↔ o.Contends slot Layer.all w) ∧
      C.Pairwise (fun v w => (o.classOf v).atLeast (o.classOf w) ∧
        (o.covers v.item slot → v.item ≠ w.item → (o.entry slot v).hides (o.entry slot w))) ∧
      (o.lookAtSlot tieBreak slot .all l).1.items
        = ((C.take (C.findIdx (fun w => o.covers w.item slot) + 1)).map (·.item)).eraseDups := by
  refine ⟨o.lineup slot Layer.all, o.pairwise_lineup slot _, fun w => o.mem_lineup slot, ?_, ?_⟩
  · refine (o.pairwise_lineup slot _).imp fun {v w} hlt => ?_
    have hclass := o.atLeast_of_standing_lt slot hlt
    exact ⟨hclass, fun hcovers hitem => Ranked.hides_iff.2 ⟨hcovers, hitem, hclass⟩⟩
  · rw [o.lookAtSlot_shows tieBreak slot .all l]
    exact o.shownItems_all tieBreak slot

end Outfit

end EntityQuery.Attire
