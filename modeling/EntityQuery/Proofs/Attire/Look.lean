import EntityQuery.Attire.Visibility

/-!
# What a look shows

A look at an outfit reads scores through the table of the ledger, and leaves the table and the log
changed.  What it shows is the same whatever the ledger: `Look.Shows x a` says that the look `x` has the
value `a` from every ledger.  So the ranking of a slot, the items of a slot and the finding of a whole
outfit are functions of the outfit alone (`Outfit.ranking`, `Outfit.slotFinding`, `Outfit.finding`).
-/

namespace EntityQuery.Attire

/-! ### Looks and their values -/

namespace Look

variable {α β : Type}

/-- From every ledger, `x` has the value `a`. -/
def Shows (x : Look α) (a : α) : Prop :=
  ∀ l : Ledger, (x l).1 = a

theorem Shows.pure (a : α) : Shows (pure a) a :=
  fun _ => rfl

theorem Shows.bind {x : Look α} {f : α → Look β} {a : α} {b : β} (hx : Shows x a)
    (hf : Shows (f a) b) : Shows (x >>= f) b := by
  intro l
  show (f (x l).1 (x l).2).1 = b
  rw [hx l]
  exact hf _

theorem Shows.mapM {f : α → Look β} {g : α → β} (hf : ∀ a, Shows (f a) (g a)) :
    ∀ as : List α, Shows (as.mapM f) (as.map g)
  | []      => .pure []
  | a :: as => by
      rw [List.mapM_cons]
      exact (hf a).bind ((Shows.mapM hf as).bind (.pure _))

theorem remark_shows (event : Event) : Shows (remark event) () :=
  fun _ => rfl

/-- Through the table, a key has its score. -/
theorem score_shows (key : ScoreKey) : Shows (score key) (key.1.score key.2) := by
  intro l
  rw [← ScoreTable.ask_fst l.scores key]
  -- A remark on an eviction comes once the score is there.
  by_cases h : l.scores.evictions < (l.scores.ask key).2.evictions
  · simp only [score, bind, StateT.bind, get, getThe, MonadStateOf.get, StateT.get, Pure.pure, h,
      if_true]
    rfl
  · simp only [score, bind, StateT.bind, get, getThe, MonadStateOf.get, StateT.get, Pure.pure, h,
      if_false]
    rfl

end Look

/-! ### Slots -/

/-- A contender with the score of its class and layer. -/
def Ranked.ofContender (c : Contender) : Ranked :=
  { toContender := c, score := c.prominence.score c.layer }

namespace Outfit

variable (o : Outfit) (tieBreak : TieBreak) (slot : String) (view : View)

/-- The contenders for a slot by rank. -/
def ranking : List Ranked :=
  Ranked.sort ((o.contenders slot view).map .ofContender)

/-- The items that a view shows of a slot, by the strategy that is chosen for it. -/
def shownItems : List ItemId :=
  match o.strategy slot view with
  | .layerRead => o.layerItems slot view
  | .ranked    => Ranked.shown tieBreak view (o.ranking slot view)

/-- What there is to find in a slot. -/
def slotFinding : SlotFinding :=
  ⟨o.shownItems tieBreak slot view, o.strategy slot view⟩

theorem rank_shows : Look.Shows (o.rank slot view) (o.ranking slot view) := by
  refine (Look.Shows.mapM (g := .ofContender) (fun c => ?_) _).bind (.pure _)
  exact (Look.score_shows (c.prominence, c.layer)).bind (.pure _)

theorem rankedItems_shows :
    Look.Shows (o.rankedItems tieBreak slot view)
      (Ranked.shown tieBreak view (o.ranking slot view)) :=
  (o.rank_shows slot view).bind (.pure _)

theorem lookAtSlot_shows :
    Look.Shows (o.lookAtSlot tieBreak slot view) (o.slotFinding tieBreak slot view) := by
  have hremark : ∀ (event : Event) (f : SlotFinding),
      Look.Shows (do Look.remark event; return f) f :=
    fun event f => (Look.remark_shows event).bind (.pure f)
  unfold lookAtSlot slotFinding shownItems
  cases o.strategy slot view with
  | layerRead => exact (Look.Shows.pure _).bind (hremark _ ⟨_, _⟩)
  | ranked    => exact (o.rankedItems_shows tieBreak slot view).bind (hremark _ ⟨_, _⟩)

theorem items_lookAtSlot (l : Ledger) :
    (o.lookAtSlot tieBreak slot view l).1.items = o.shownItems tieBreak slot view :=
  congrArg SlotFinding.items (o.lookAtSlot_shows tieBreak slot view l)

/-! ### Whole outfits -/

/-- What there is to find in an outfit. -/
def finding : Finding :=
  { items := (o.items.slotNames.flatMap fun slot => o.shownItems tieBreak slot view).eraseDups
    layerReads := o.items.slotNames.countP fun slot => o.strategy slot view = .layerRead
    rankings := o.items.slotNames.countP fun slot => o.strategy slot view = .ranked }

theorem look_shows : Look.Shows (o.look tieBreak view) (o.finding tieBreak view) := by
  have hslots := Look.Shows.mapM (fun slot => o.lookAtSlot_shows tieBreak slot view)
    o.items.slotNames
  have hlook := hslots.bind (f := fun found => pure (Finding.mk (found.flatMap (·.items)).eraseDups
    (found.countP (·.strategy = .layerRead)) (found.countP (·.strategy = .ranked)))) (.pure _)
  simp only [List.flatMap_map, List.countP_map] at hlook
  exact hlook

end Outfit

end EntityQuery.Attire
