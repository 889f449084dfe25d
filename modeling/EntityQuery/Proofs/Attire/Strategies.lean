import EntityQuery.Proofs.Attire.Finding
import EntityQuery.Proofs.Support.Counting

/-!
# Strategies

Where only one layer of a slot is occupied and nobody declares anything, and under a view of one layer, a slot
is read; all other slots are ranked (`Outfit.NeedsRanking`).  To read a slot asks for no scores:

* `Outfit.strategy_eq_ranked_iff`: the strategy that is chosen is the one that is needed.
* `Outfit.look_keepsScores`: a look at an outfit of which no slot is ranked leaves the score table as it is.
-/

namespace EntityQuery.Attire

/-! ### Looks that ask for no scores -/

namespace Look

variable {α β : Type}

/-- The score table is afterwards as it was before. -/
def KeepsScores (x : Look α) : Prop :=
  ∀ l : Ledger, (x l).2.scores = l.scores

theorem KeepsScores.pure (a : α) : KeepsScores (pure a) :=
  fun _ => rfl

theorem KeepsScores.bind {x : Look α} {f : α → Look β} (hx : KeepsScores x)
    (hf : ∀ a, KeepsScores (f a)) : KeepsScores (x >>= f) :=
  fun l => (hf (x l).1 (x l).2).trans (hx l)

theorem KeepsScores.mapM {f : α → Look β} {as : List α} (h : ∀ a ∈ as, KeepsScores (f a)) :
    KeepsScores (as.mapM f) := by
  induction as with
  | nil          => exact .pure []
  | cons a as ih =>
      obtain ⟨ha, has⟩ := List.forall_mem_cons.1 h
      rw [List.mapM_cons]
      exact ha.bind fun _ => (ih has).bind fun _ => .pure _

theorem remark_keepsScores (event : Event) : KeepsScores (remark event) :=
  fun _ => rfl

end Look

namespace Outfit

variable (o : Outfit) (tieBreak : TieBreak) (slot : String) (view : View)

/-! ### Slots -/

/-- Reading the layers of the slot is not enough: the view respects coverage, and either somebody declares
something or not just one of the layers that the view looks at is occupied. -/
structure NeedsRanking : Prop where
  respected : view.usesCoverage
  undecided : (∃ item c, o.coverageOf? item = some c) ∨
    ¬ ∃! layer, view.layers.admits layer ∧ ∃ item, o.items.itemAt? slot layer = some item

theorem length_occupiedIn_eq_one_iff (layers : LayerSet) :
    (o.items.occupiedIn slot layers).length = 1 ↔
      ∃! layer, layers.admits layer ∧ ∃ item, o.items.itemAt? slot layer = some item := by
  have hnodup : (o.items.occupiedIn slot layers).Nodup :=
    (o.items.pairwise_occupiedIn slot layers).imp (by rintro x _ h rfl; exact Nat.lt_irrefl _ h)
  rw [length_eq_one_iff_existsUnique hnodup]
  constructor
  · rintro ⟨⟨layer, item⟩, hx, honly⟩
    obtain ⟨hworn, hadmits⟩ := Equipment.mem_occupiedIn.1 hx
    refine ⟨layer, ⟨hadmits, item, hworn⟩, ?_⟩
    rintro layer' ⟨hadmits', item', hworn'⟩
    exact congrArg Prod.fst (honly (layer', item') (Equipment.mem_occupiedIn.2 ⟨hworn', hadmits'⟩))
  · rintro ⟨layer, ⟨hadmits, item, hworn⟩, honly⟩
    refine ⟨(layer, item), Equipment.mem_occupiedIn.2 ⟨hworn, hadmits⟩, ?_⟩
    rintro ⟨layer', item'⟩ hx
    obtain ⟨hworn', hadmits'⟩ := Equipment.mem_occupiedIn.1 hx
    obtain rfl : layer' = layer := honly layer' ⟨hadmits', item', hworn'⟩
    rw [Option.some.inj (hworn'.symm.trans hworn)]

/-- **The strategy that is chosen for a slot is the one that is needed.** -/
theorem strategy_eq_ranked_iff : o.strategy slot view = .ranked ↔ o.NeedsRanking slot view := by
  have hranked : o.strategy slot view = .ranked ↔ view.usesCoverage ∧
      ¬ ((o.items.occupiedIn slot view.layers).length = 1 ∧ ¬ o.hasCoverage) := by
    rw [strategy]
    cases view.usesCoverage with
    | false => simp
    | true  => split <;> simp_all
  rw [hranked, not_and_not_right, length_occupiedIn_eq_one_iff, hasCoverage_iff, imp_iff_or_not]
  exact ⟨fun h => ⟨h.1, h.2⟩, fun h => ⟨h.respected, h.undecided⟩⟩

instance : Decidable (o.NeedsRanking slot view) :=
  decidable_of_iff _ (o.strategy_eq_ranked_iff slot view)

theorem strategy_eq_layerRead_iff : o.strategy slot view = .layerRead ↔ ¬ o.NeedsRanking slot view := by
  rw [← strategy_eq_ranked_iff]
  cases o.strategy slot view <;> simp

variable {o slot view}

/-- A slot that is read asks for no scores. -/
theorem lookAtSlot_keepsScores (h : ¬ o.NeedsRanking slot view) :
    (o.lookAtSlot tieBreak slot view).KeepsScores := by
  unfold lookAtSlot
  rw [(o.strategy_eq_layerRead_iff slot view).2 h]
  exact (Look.KeepsScores.pure _).bind fun _ => (Look.remark_keepsScores _).bind fun _ => .pure _

/-! ### Whole outfits -/

/-- Each slot that is ranked is counted as one that needs it. -/
theorem rankings_finding (o : Outfit) (tieBreak : TieBreak) (view : View) :
    (o.finding tieBreak view).rankings = o.items.slotNames.countP (o.NeedsRanking · view) :=
  List.countP_congr fun slot _ => by simp only [decide_eq_true_eq, strategy_eq_ranked_iff]

theorem look_keepsScores (h : ∀ slot ∈ o.items.slotNames, ¬ o.NeedsRanking slot view) :
    (o.look tieBreak view).KeepsScores :=
  (Look.KeepsScores.mapM fun slot hslot => lookAtSlot_keepsScores tieBreak (h slot hslot)).bind fun _ => .pure _

end Outfit

end EntityQuery.Attire
