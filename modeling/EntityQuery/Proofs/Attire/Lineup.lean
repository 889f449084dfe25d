import EntityQuery.Proofs.Attire.Look
import EntityQuery.Proofs.Attire.Worn
import Mathlib.Data.List.Sort

/-!
# The lineup of a slot

A worn item contends for a slot if it is worn there, or worn elsewhere and declares to cover the slot
(`Outfit.Contends`).  Contenders stand in the lexicographic order of their class, their layer, whether
they are worn in the slot or cover it from elsewhere, and the name of the slot they are worn in
(`Outfit.standing`).  No two contenders stand alike, so they line up in one way only (`Outfit.lineup`).

Scores are sums, and the order of rank compares them first.  Since the class outweighs every layer, this
is the order of standing (`isLE_order_iff`); hence the ranking of a slot is its lineup
(`ranking_eq_map_lineup`).
-/

namespace EntityQuery.Attire

open Equipment (Worn)

/-! ### Classes and layers -/

namespace Layer

theorem weight_eq (layer : Layer) : layer.weight = 10 * (layer.depth + 1) := by
  cases layer <;> rfl

theorem depth_lt (layer : Layer) : layer.depth < 4 := by
  cases layer <;> decide

end Layer

namespace Prominence

/-- The place of a class among the classes, the most prominent first. -/
def rank : Prominence → Nat
  | outer     => 0
  | base      => 1
  | underwear => 2
  | direct    => 3

theorem rank_injective : Function.Injective rank := by
  intro p q h
  cases p <;> cases q <;> first | rfl | cases h

/-- The class of a layer has the place of the layer. -/
theorem rank_ofLayer (layer : Layer) : (ofLayer layer).rank = layer.depth := by
  cases layer <;> rfl

theorem weight_eq (p : Prominence) : p.weight = 100 * (p.rank + 1) := by
  cases p <;> rfl

theorem atLeast_iff {p q : Prominence} : p.atLeast q ↔ p.rank ≤ q.rank := by
  rw [atLeast, weight_eq, weight_eq, decide_eq_true_iff]
  omega

theorem score_eq (p : Prominence) (layer : Layer) :
    p.score layer = 100 * (p.rank + 1) + 10 * (layer.depth + 1) := by
  rw [score, weight_eq, Layer.weight_eq]

/-- The class decides, whatever the layers; within a class the layer does. -/
theorem score_lt_iff {p q : Prominence} {l m : Layer} :
    p.score l < q.score m ↔ p.rank < q.rank ∨ p.rank = q.rank ∧ l.depth < m.depth := by
  rw [score_eq, score_eq]
  have hl := l.depth_lt
  have hm := m.depth_lt
  omega

theorem score_eq_iff {p q : Prominence} {l m : Layer} :
    p.score l = q.score m ↔ p.rank = q.rank ∧ l.depth = m.depth := by
  rw [score_eq, score_eq]
  have hl := l.depth_lt
  have hm := m.depth_lt
  omega

end Prominence

namespace Outfit

variable (o : Outfit) (slot : String)

/-! ### Contenders and how they stand -/

/-- `w` contends for `slot` among the items worn at `layers`. -/
structure Contends (layers : List Layer) (w : Worn) : Prop where
  worn : o.items.itemAt? w.slot w.layer = some w.item
  admitted : w.layer ∈ layers
  reaches : w.slot = slot ∨ o.covers w.item slot

/-- The class of a worn item. -/
def classOf (w : Worn) : Prominence :=
  o.prominence w.item w.layer

/-- How a worn item stands among the contenders for a slot: by class, by layer, those worn in the slot
before those that cover it, and by the name of the slot it is worn in. -/
def standing (w : Worn) : Nat ×ₗ Nat ×ₗ Bool ×ₗ String :=
  toLex ((o.classOf w).rank, toLex (w.layer.depth, toLex (decide (w.slot ≠ slot), w.slot)))

theorem standing_le_iff {a b : Worn} :
    o.standing slot a ≤ o.standing slot b ↔
      (o.classOf a).rank < (o.classOf b).rank ∨ (o.classOf a).rank = (o.classOf b).rank ∧
        (a.layer.depth < b.layer.depth ∨ a.layer.depth = b.layer.depth ∧
          (decide (a.slot ≠ slot) < decide (b.slot ≠ slot) ∨
            decide (a.slot ≠ slot) = decide (b.slot ≠ slot) ∧ a.slot ≤ b.slot)) := by
  simp only [standing, Prod.Lex.toLex_le_toLex]

/-- Items that stand alike are worn at one place. -/
theorem place_of_standing_eq {a b : Worn} (h : o.standing slot a = o.standing slot b) :
    a.slot = b.slot ∧ a.layer = b.layer := by
  simp only [standing, toLex_inj, Prod.mk.injEq] at h
  obtain ⟨-, hlayer, -, hslot⟩ := h
  exact ⟨hslot, Layer.depth_injective hlayer⟩

theorem eq_of_standing_eq {a b : Worn} (ha : a ∈ o.items.toList) (hb : b ∈ o.items.toList)
    (h : o.standing slot a = o.standing slot b) : a = b := by
  obtain ⟨hslot, hlayer⟩ := o.place_of_standing_eq slot h
  exact Equipment.eq_of_mem_toList ha hb hslot hlayer

/-! ### The lineup -/

/-- The worn items of `ws` as they stand. -/
def sortWorn (ws : List Worn) : List Worn :=
  ws.insertionSort fun a b => o.standing slot a ≤ o.standing slot b

theorem mem_sortWorn {ws : List Worn} {w : Worn} : w ∈ o.sortWorn slot ws ↔ w ∈ ws :=
  List.mem_insertionSort _

theorem pairwise_sortWorn {ws : List Worn} (hnodup : ws.Nodup) (hworn : ∀ w ∈ ws, w ∈ o.items.toList) :
    (o.sortWorn slot ws).Pairwise (o.standing slot · < o.standing slot ·) := by
  have hle : (o.sortWorn slot ws).Pairwise (o.standing slot · ≤ o.standing slot ·) := by
    have : Std.Total fun a b => o.standing slot a ≤ o.standing slot b :=
      ⟨fun a b => le_total _ _⟩
    have : IsTrans Worn fun a b => o.standing slot a ≤ o.standing slot b :=
      ⟨fun a b c => le_trans⟩
    exact List.pairwise_insertionSort _ ws
  -- Sorting leaves ties, but worn items that stand alike are one.
  have hne : (o.sortWorn slot ws).Pairwise (· ≠ ·) :=
    (List.perm_insertionSort _ ws).nodup_iff.2 hnodup
  refine (hle.and hne).imp_of_mem fun ha hb h => lt_of_le_of_ne h.1 fun heq => h.2 ?_
  exact o.eq_of_standing_eq slot (hworn _ ((o.mem_sortWorn slot).1 ha))
    (hworn _ ((o.mem_sortWorn slot).1 hb)) heq

/-- Lists that stand in order and have the same members are equal. -/
theorem eq_of_pairwise_standing {xs ys : List Worn}
    (hx : xs.Pairwise (o.standing slot · < o.standing slot ·))
    (hy : ys.Pairwise (o.standing slot · < o.standing slot ·)) (h : ∀ w, w ∈ xs ↔ w ∈ ys) :
    xs = ys := by
  have : Std.Irrefl fun a b => o.standing slot a < o.standing slot b := ⟨fun a => lt_irrefl _⟩
  have : Std.Antisymm fun a b => o.standing slot a < o.standing slot b :=
    ⟨fun a b hab hba => absurd hab (lt_asymm hba)⟩
  exact hx.eq_of_mem_iff hy h

/-- The contenders for a slot as they stand. -/
def lineup (layers : List Layer) : List Worn :=
  o.sortWorn slot
    (o.items.toList.filter fun w => w.layer ∈ layers ∧ (w.slot = slot ∨ o.covers w.item slot))

theorem mem_lineup {layers : List Layer} {w : Worn} :
    w ∈ o.lineup slot layers ↔ o.Contends slot layers w := by
  rw [lineup, mem_sortWorn, List.mem_filter, Equipment.mem_toList_iff, decide_eq_true_iff]
  exact ⟨fun h => ⟨h.1, h.2.1, h.2.2⟩, fun h => ⟨h.worn, h.admitted, h.reaches⟩⟩

/-- Everyone in the lineup stands before all who come after. -/
theorem pairwise_lineup (layers : List Layer) :
    (o.lineup slot layers).Pairwise (o.standing slot · < o.standing slot ·) :=
  o.pairwise_sortWorn slot (o.items.nodup_toList.filter _) fun _ h => (List.mem_filter.1 h).1

end Outfit

/-! ### Ranking -/

namespace Ranked

theorem insert_eq_orderedInsert (a : Ranked) :
    ∀ rs, insert a rs = rs.orderedInsert (fun x y => (order x y).isLE = true) a
  | []      => rfl
  | b :: rs => by
      rw [insert, List.orderedInsert_cons, insert_eq_orderedInsert a rs]

theorem sort_eq_insertionSort :
    ∀ rs, sort rs = rs.insertionSort fun x y => (order x y).isLE = true
  | []      => rfl
  | a :: rs => by
      rw [List.insertionSort_cons, ← sort_eq_insertionSort rs, ← insert_eq_orderedInsert]
      rfl

end Ranked

namespace Outfit

variable (o : Outfit) (slot : String)

/-- What a worn item is to a slot that it contends for. -/
def contender (w : Worn) : Contender :=
  { item := w.item, layer := w.layer, prominence := o.prominence w.item w.layer
    wornIn := if w.slot = slot then none else some w.slot, covers := o.covers w.item slot }

/-- What a worn item is in the ranking of a slot. -/
def entry (w : Worn) : Ranked :=
  .ofContender (o.contender slot w)

theorem isLE_placeOrder_iff (s t : String) :
    (Ranked.placeOrder (if s = slot then none else some s)
        (if t = slot then none else some t)).isLE = true ↔
      decide (s ≠ slot) < decide (t ≠ slot) ∨ decide (s ≠ slot) = decide (t ≠ slot) ∧ s ≤ t := by
  by_cases hs : s = slot <;> by_cases ht : t = slot
  · simp [hs, ht, Ranked.placeOrder]
  · simp [hs, ht, Ranked.placeOrder]
  · simp [hs, ht, Ranked.placeOrder]
  · simp only [hs, ht, if_false, Ranked.placeOrder, ne_eq, not_false_eq_true, decide_true,
      lt_irrefl, true_and, false_or]
    exact Ordering.ne_gt_iff_isLE.symm.trans compare_le_iff_le

/-- The order of rank is the order of standing. -/
theorem isLE_order_iff {a b : Worn} :
    (Ranked.order (o.entry slot a) (o.entry slot b)).isLE = true ↔
      o.standing slot a ≤ o.standing slot b := by
  have hlt : (o.entry slot a).score < (o.entry slot b).score ↔
      (o.classOf a).rank < (o.classOf b).rank ∨
      (o.classOf a).rank = (o.classOf b).rank ∧ a.layer.depth < b.layer.depth :=
    Prominence.score_lt_iff
  have heq : (o.entry slot a).score = (o.entry slot b).score ↔
      (o.classOf a).rank = (o.classOf b).rank ∧ a.layer.depth = b.layer.depth :=
    Prominence.score_eq_iff
  -- On equal scores the layers are equal, and the order of rank is left with the places.
  have hplace : a.layer.depth = b.layer.depth →
      (((Ranked.placeOrder (o.entry slot a).wornIn (o.entry slot b).wornIn).then
          (compare (o.entry slot a).layer.depth (o.entry slot b).layer.depth)).isLE = true ↔
        decide (a.slot ≠ slot) < decide (b.slot ≠ slot) ∨
          decide (a.slot ≠ slot) = decide (b.slot ≠ slot) ∧ a.slot ≤ b.slot) := by
    intro hdepth
    have hcompare : compare (o.entry slot a).layer.depth (o.entry slot b).layer.depth = .eq :=
      compare_eq_iff_eq.2 hdepth
    rw [hcompare, Ordering.then_eq]
    exact isLE_placeOrder_iff slot a.slot b.slot
  rw [standing_le_iff, Ranked.order, Ordering.isLE_then_iff_or, compare_lt_iff_lt,
    compare_eq_iff_eq, hlt, heq]
  constructor
  · rintro ((h | ⟨h, hd⟩) | ⟨⟨h, hd⟩, hp⟩)
    · exact .inl h
    · exact .inr ⟨h, .inl hd⟩
    · exact .inr ⟨h, .inr ⟨hd, (hplace hd).1 hp⟩⟩
  · rintro (h | ⟨h, hd | ⟨hd, hp⟩⟩)
    · exact .inl (.inl h)
    · exact .inl (.inr ⟨h, hd⟩)
    · exact .inr ⟨⟨h, hd⟩, (hplace hd).2 hp⟩

/-! ### The ranking as a lineup -/

/-- The items worn in the slot itself, at the layers that a view looks at. -/
def direct (view : View) : List Worn :=
  (o.items.occupiedIn slot view.layers).map fun (layer, item) => ⟨slot, layer, item⟩

/-- The items worn elsewhere at such layers that cover the slot, if the view respects coverage. -/
def covering (view : View) : List Worn :=
  if view.usesCoverage then
    o.items.toList.filter fun w =>
      w.slot ≠ slot ∧ view.layers.admits w.layer ∧ o.covers w.item slot
  else []

/-- The worn items that contend for a slot, in the order in which their scores are asked for. -/
def approaching (view : View) : List Worn :=
  o.direct slot view ++ o.covering slot view

theorem directContenders_eq_map (view : View) :
    o.directContenders slot view = (o.direct slot view).map (o.contender slot) := by
  rw [directContenders, direct, List.map_map]
  refine List.map_congr_left fun x _ => ?_
  simp [contender]

theorem coveringContenders_eq_map (view : View) :
    o.coveringContenders slot view = (o.covering slot view).map (o.contender slot) := by
  rw [coveringContenders, covering]
  split
  · refine List.map_congr_left fun w hw => ?_
    obtain ⟨hslot, -, hcovers⟩ := of_decide_eq_true (List.mem_filter.1 hw).2
    simp [contender, hslot, hcovers]
  · rfl

theorem contenders_eq_map (view : View) :
    o.contenders slot view = (o.approaching slot view).map (o.contender slot) := by
  rw [contenders, directContenders_eq_map, coveringContenders_eq_map, approaching, List.map_append]

theorem ranking_eq_map_sortWorn (view : View) :
    o.ranking slot view = (o.sortWorn slot (o.approaching slot view)).map (o.entry slot) := by
  rw [ranking, contenders_eq_map, List.map_map, Ranked.sort_eq_insertionSort, sortWorn,
    List.map_insertionSort (r := fun a b => o.standing slot a ≤ o.standing slot b)
      (s := fun x y => (Ranked.order x y).isLE = true)]
  · rfl
  · exact fun a _ b _ => (o.isLE_order_iff slot).symm

theorem mem_direct {view : View} {w : Worn} :
    w ∈ o.direct slot view ↔
      o.items.itemAt? w.slot w.layer = some w.item ∧ w.slot = slot ∧ view.layers.admits w.layer := by
  rw [direct, List.mem_map]
  constructor
  · rintro ⟨⟨layer, item⟩, hx, rfl⟩
    obtain ⟨hworn, hadmits⟩ := Equipment.mem_occupiedIn.1 hx
    exact ⟨hworn, rfl, hadmits⟩
  · rintro ⟨hworn, rfl, hadmits⟩
    exact ⟨(w.layer, w.item), Equipment.mem_occupiedIn.2 ⟨hworn, hadmits⟩, rfl⟩

theorem mem_covering {view : View} (hview : view.usesCoverage) {w : Worn} :
    w ∈ o.covering slot view ↔
      o.items.itemAt? w.slot w.layer = some w.item ∧
        w.slot ≠ slot ∧ view.layers.admits w.layer ∧ o.covers w.item slot := by
  rw [covering, if_pos hview, List.mem_filter, Equipment.mem_toList_iff, decide_eq_true_iff]

theorem covering_eq_nil {view : View} (hview : view.usesCoverage = false) :
    o.covering slot view = [] := by
  rw [covering, hview]
  rfl

theorem slot_ne_of_mem_covering {view : View} {w : Worn} (hw : w ∈ o.covering slot view) :
    w.slot ≠ slot := by
  cases hview : view.usesCoverage with
  | true  => exact ((o.mem_covering slot hview).1 hw).2.1
  | false =>
      rw [o.covering_eq_nil slot hview] at hw
      cases hw

theorem pairwise_direct (view : View) :
    (o.direct slot view).Pairwise (·.layer.depth < ·.layer.depth) :=
  List.pairwise_map.2 (o.items.pairwise_occupiedIn slot view.layers)

theorem mem_approaching {view : View} (hview : view.usesCoverage) {w : Worn} :
    w ∈ o.approaching slot view ↔ o.Contends slot view.layers.ordered w := by
  rw [approaching, List.mem_append, mem_direct, mem_covering o slot hview]
  constructor
  · rintro (⟨hworn, hslot, hlayer⟩ | ⟨hworn, -, hlayer, hcovers⟩)
    · exact ⟨hworn, LayerSet.mem_ordered.2 hlayer, .inl hslot⟩
    · exact ⟨hworn, LayerSet.mem_ordered.2 hlayer, .inr hcovers⟩
  · rintro ⟨hworn, hlayer, hreaches⟩
    have hadmits := LayerSet.mem_ordered.1 hlayer
    by_cases hslot : w.slot = slot
    · exact .inl ⟨hworn, hslot, hadmits⟩
    · exact .inr ⟨hworn, hslot, hadmits, hreaches.resolve_left hslot⟩

theorem nodup_direct (view : View) : (o.direct slot view).Nodup := by
  refine (o.pairwise_direct slot view).imp fun hlt heq => ?_
  exact absurd (congrArg (·.layer.depth) heq) (Nat.ne_of_lt hlt)

theorem nodup_covering (view : View) : (o.covering slot view).Nodup := by
  rw [covering]
  split
  · exact o.items.nodup_toList.filter _
  · exact List.nodup_nil

theorem nodup_approaching (view : View) : (o.approaching slot view).Nodup := by
  refine List.nodup_append.2 ⟨o.nodup_direct slot view, o.nodup_covering slot view, ?_⟩
  intro v hv w hw heq
  exact o.slot_ne_of_mem_covering slot hw (heq ▸ ((o.mem_direct slot).1 hv).2.1)

/-- The ranking of a slot is its lineup. -/
theorem ranking_eq_map_lineup {view : View} (hview : view.usesCoverage) :
    o.ranking slot view = (o.lineup slot view.layers.ordered).map (o.entry slot) := by
  rw [ranking_eq_map_sortWorn]
  congr 1
  -- Both sides stand in order, so that only their members can tell them apart.
  have hmem := fun w => o.mem_approaching slot hview (w := w)
  refine o.eq_of_pairwise_standing slot (o.pairwise_sortWorn slot (o.nodup_approaching slot view)
    fun w hw => Equipment.mem_toList_iff.2 ((hmem w).1 hw).worn) (o.pairwise_lineup slot _) ?_
  intro w
  rw [mem_sortWorn, mem_lineup, hmem]

end Outfit

end EntityQuery.Attire
