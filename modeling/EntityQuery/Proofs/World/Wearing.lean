import EntityQuery.Proofs.Attire.Declared
import EntityQuery.Proofs.Attire.Described
import EntityQuery.Proofs.Attire.Reading
import EntityQuery.Proofs.Resolution.Treatment
import EntityQuery.World.Fault
import EntityQuery.World.Store

/-!
# What somebody wears

To find out what somebody wears takes one reading of the equipment, and then one of what each item declares,
in the order of the places (`World.outfitReadings`).  Data that is absent or of the wrong form is taken for
none; a reading that fails is an error, and the first one counts.

* `World.wears_iff`: the data of an equipment component comes to one equipment, by cases (`World.Wears`).
* `World.mem_toList_of_text`: and if a text denotes it, to the items that the text describes.
* `World.outfit_eq_error`: there is no outfit just where a reading fails, and the first fault is told.
* `World.coverageOf?_of_outfit`: else what the outfit has of an item is what the item declares, if it is worn.
* `Asking.loads_what_is_worn`: so it is wherever an outfit is asked for in the course of a query.
* `World.mem_coverageRemarks`: data of a worn item that is no declaration is remarked on.
-/

namespace EntityQuery

open Attire (Coverage Equipment ItemId Outfit)

namespace World

variable {w : World} {id : EntityId} {o o' : Outfit} {item : ItemId} {fault : ReadFault}

/-! ### Equipment -/

/-- What the data of an equipment component comes to, if there is any: the equipment that is read from its
member, or none. -/
inductive Wears : Option Json → Equipment → Prop where
  | absent : Wears none ∅
  | noObject {data : Json} (h : ∀ members, data ≠ .obj members) : Wears (some data) ∅
  | noMember {members : List (String × Json)} (h : Entries.get? equippedMember members = none) :
      Wears (some (.obj members)) ∅
  | malformed {members : List (String × Json)} {equipped : Json} {err : Attire.AttireError}
      (h : Entries.get? equippedMember members = some equipped)
      (hrefused : Equipment.ofJson? equipped = .error err) : Wears (some (.obj members)) ∅
  | equipped {members : List (String × Json)} {equipped : Json} {items : Equipment}
      (h : Entries.get? equippedMember members = some equipped)
      (hread : Equipment.ofJson? equipped = .ok items) : Wears (some (.obj members)) items

/-- The equipment that the data comes to. -/
def wornIn (data? : Option Json) : Equipment :=
  match data?.bind (·.member? equippedMember) with
  | none          => ∅
  | some equipped => (Equipment.ofJson? equipped).toOption.getD ∅

theorem wears_iff {data? : Option Json} {items : Equipment} : Wears data? items ↔ items = wornIn data? := by
  constructor
  · intro h
    cases h with
    | absent               => rfl
    | noObject h           =>
        rename_i data
        cases data with
        | obj members                            => exact (h members rfl).elim
        | null | bool _ | num _ | str _ | arr _ => rfl
    | noMember h           => simp [wornIn, Json.member?, h]
    | malformed h hrefused => simp [wornIn, Json.member?, h, hrefused, Except.toOption]
    | equipped h hread     => simp [wornIn, Json.member?, h, hread, Except.toOption]
  · rintro rfl
    cases data? with
    | none      => exact .absent
    | some data =>
        cases data with
        | null | bool _ | num _ | str _ | arr _ => exact .noObject nofun
        | obj members                            =>
            cases h : Entries.get? equippedMember members with
            | none          => simpa [wornIn, Json.member?, h] using Wears.noMember h
            | some equipped =>
                cases hread : Equipment.ofJson? equipped with
                | error err => simpa [wornIn, Json.member?, h, hread, Except.toOption] using .malformed h hread
                | ok items  => simpa [wornIn, Json.member?, h, hread, Except.toOption] using .equipped h hread

/-- Canonical data comes to the items that its member describes. -/
theorem mem_toList_wornIn {data : Json} {x : Equipment.Worn} (hdata : data.Canonical) :
    x ∈ (wornIn (some data)).toList ↔
      ∃ equipped, data.member? equippedMember = some equipped ∧ Equipment.Describes equipped x := by
  rw [wornIn, Option.bind_some]
  cases hmember : data.member? equippedMember with
  | none          => exact ⟨fun hx => absurd hx List.not_mem_nil, by rintro ⟨_, ⟨⟩, -⟩⟩
  | some equipped =>
      simp only [Option.some.injEq, exists_eq_left']
      exact Equipment.mem_toList_getD (hdata.member hmember)

/-- An outfit is asked for in two goes: the equipment, and what its items declare. -/
theorem outfit_eq (w : World) (id : EntityId) :
    w.outfit id = w.component? id equipmentComponent >>= fun data? => w.outfitOf (wornIn data?) := by
  unfold outfit
  congr 1
  funext data?
  unfold wornIn
  cases data?.bind (·.member? equippedMember) with
  | none          => rfl
  | some equipped =>
      dsimp only
      cases Equipment.ofJson? equipped <;> rfl

/-! ### Declarations -/

/-- What the data of an item's component declares. -/
def Declares (w : World) (item : ItemId) (c : Coverage) : Prop :=
  ∃ data, w.component? item coverageComponent = .ok (some data) ∧ Coverage.ofJson? data = some c

theorem withCoverage_eq_error :
    w.withCoverage o item = .error fault ↔ w.component? item coverageComponent = .error fault := by
  unfold withCoverage
  rw [Attempt.bind_eq_error]
  refine or_iff_left ?_
  rintro ⟨data?, -, h⟩
  cases data? with
  | none      => cases h
  | some data =>
      dsimp only at h
      split at h <;> cases h

theorem Declares.unique {c c' : Coverage} (h : w.Declares item c) (h' : w.Declares item c') : c = c' := by
  obtain ⟨data, hdata, hc⟩ := h
  obtain ⟨data', hdata', hc'⟩ := h'
  cases hdata.symm.trans hdata'
  exact Option.some.inj (hc.symm.trans hc')

/-- What is known of items is what they declare. -/
def Sound (w : World) (o : Outfit) : Prop :=
  ∀ item c, o.coverageOf? item = some c → w.Declares item c

/-- One more item adds what it declares to what was known before. -/
theorem coverageOf?_of_withCoverage {x : ItemId} {c : Coverage} (hsound : w.Sound o)
    (h : w.withCoverage o x = .ok o') :
    o'.coverageOf? item = some c ↔ o.coverageOf? item = some c ∨ item = x ∧ w.Declares item c := by
  obtain ⟨data?, hdata, h⟩ := Attempt.bind_eq_ok.1 h
  -- An item that declares nothing adds nothing.
  have hsilent (hnone : ∀ c, ¬ w.Declares x c) :
      o.coverageOf? item = some c ↔ o.coverageOf? item = some c ∨ item = x ∧ w.Declares item c := by
    refine (or_iff_left ?_).symm
    rintro ⟨rfl, hc⟩
    exact hnone c hc
  cases data? with
  | none      =>
      cases h
      refine hsilent ?_
      rintro c ⟨data, hsome, -⟩
      cases hdata.symm.trans hsome
  | some data =>
      dsimp only at h
      split at h
      · rename_i c' hc'
        cases h
        have hdeclares : w.Declares x c' := ⟨data, hdata, Coverage.ofJson_eq_ok.1 hc'⟩
        rw [Outfit.coverageOf?, Outfit.declare, Table.get?_insert]
        by_cases hitem : item = x
        · subst hitem
          rw [if_pos rfl, Option.some.injEq]
          constructor
          · rintro rfl
            exact .inr ⟨rfl, hdeclares⟩
          · rintro (hknown | ⟨-, hc⟩)
            · exact hdeclares.unique (hsound _ _ hknown)
            · exact hdeclares.unique hc
        · rw [if_neg hitem]
          exact (or_iff_left fun hx => hitem hx.1).symm
      · rename_i hrefused
        cases h
        refine hsilent ?_
        rintro c ⟨data', hsome, hc⟩
        cases hdata.symm.trans hsome
        cases hrefused.symm.trans (Coverage.ofJson_eq_ok.2 hc)

theorem Sound.withCoverage {x : ItemId} (hsound : w.Sound o) (h : w.withCoverage o x = .ok o') :
    w.Sound o' := fun _ _ hc =>
  ((coverageOf?_of_withCoverage hsound h).1 hc).elim (hsound _ _) And.right

theorem coverageOf?_of_foldlM {worn : List Equipment.Worn} {c : Coverage} (hsound : w.Sound o)
    (h : worn.foldlM (fun o x => w.withCoverage o x.item) o = .ok o') :
    o'.coverageOf? item = some c ↔
      o.coverageOf? item = some c ∨ item ∈ worn.map (·.item) ∧ w.Declares item c := by
  induction worn generalizing o with
  | nil            =>
      cases h
      simp
  | cons x worn ih =>
      rw [List.foldlM_cons] at h
      obtain ⟨o'', hx, h⟩ := Attempt.bind_eq_ok.1 h
      rw [ih (hsound.withCoverage hx) h, coverageOf?_of_withCoverage hsound hx, or_assoc, ← or_and_right,
        List.map_cons, List.mem_cons]

/-! ### Outfits -/

/-- The readings that it takes to find out what somebody wears: of the equipment, and then of what each item
declares. -/
def outfitReadings (w : World) (id : EntityId) : List (Except ReadFault (Option Json)) :=
  let data? := w.component? id equipmentComponent
  let items := data?.toOption.elim ∅ wornIn
  data? :: items.toList.map fun x => w.component? x.item coverageComponent

/-- **There is no outfit just where a reading fails**, and the first fault is told. -/
theorem outfit_eq_error :
    w.outfit id = .error fault ↔ (w.outfitReadings id).findSome? Attempt.error? = some fault := by
  rw [outfit_eq, outfitReadings]
  cases w.component? id equipmentComponent with
  | error fault' =>
      exact ⟨fun h => congrArg some (Except.error.inj h), fun h => congrArg _ (Option.some.inj h)⟩
  | ok data?     =>
      show w.outfitOf (wornIn data?) = .error fault ↔
        ((wornIn data?).toList.map fun x => w.component? x.item coverageComponent).findSome?
          Attempt.error? = some fault
      exact Attempt.foldlM_eq_error (f := fun o x => w.withCoverage o x.item)
        (g := fun x : Equipment.Worn => w.component? x.item coverageComponent)
        fun _ _ _ => withCoverage_eq_error

theorem exists_outfit_eq_error :
    (∃ fault, w.outfit id = .error fault) ↔
      (∃ fault, w.component? id equipmentComponent = .error fault) ∨
      ∃ data? items slot layer item fault, w.component? id equipmentComponent = .ok data? ∧
        Wears data? items ∧ items.itemAt? slot layer = some item ∧
        w.component? item coverageComponent = .error fault := by
  simp only [outfit_eq_error, Attempt.exists_first_error, outfitReadings, List.exists_mem_cons_iff]
  cases w.component? id equipmentComponent with
  | error fault => exact ⟨fun _ => .inl ⟨fault, rfl⟩, fun _ => .inl ⟨fault, rfl⟩⟩
  | ok data?    =>
      refine or_congr_right ?_
      simp only [List.mem_map]
      constructor
      · rintro ⟨_, ⟨x, hx, rfl⟩, fault, hfault⟩
        exact ⟨data?, _, x.slot, x.layer, x.item, fault, rfl, wears_iff.2 rfl, Equipment.mem_toList_iff.1 hx,
          hfault⟩
      · rintro ⟨_, items, slot, layer, item, fault, ⟨⟩, hwears, hworn, hfault⟩
        obtain rfl := wears_iff.1 hwears
        exact ⟨_, ⟨⟨slot, layer, item⟩, Equipment.mem_toList_iff.2 hworn, rfl⟩, fault, hfault⟩

/-- **An outfit knows what its items declare**, and of no other items. -/
theorem coverageOf?_of_outfit {c : Coverage} (h : w.outfit id = .ok o) :
    o.coverageOf? item = some c ↔
      (∃ slot layer, o.items.itemAt? slot layer = some item) ∧ w.Declares item c := by
  rw [outfit_eq] at h
  obtain ⟨data?, -, h⟩ := Attempt.bind_eq_ok.1 h
  have hsound : w.Sound { items := wornIn data? } := nofun
  rw [coverageOf?_of_foldlM hsound h, items_of_outfitOf h]
  have hworn : item ∈ (wornIn data?).toList.map (·.item) ↔
      ∃ slot layer, (wornIn data?).itemAt? slot layer = some item := by
    rw [List.mem_map]
    constructor
    · rintro ⟨x, hx, rfl⟩
      exact ⟨x.slot, x.layer, Equipment.mem_toList_iff.1 hx⟩
    · rintro ⟨slot, layer, hitem⟩
      exact ⟨⟨slot, layer, item⟩, Equipment.mem_toList_iff.2 hitem, rfl⟩
  rw [hworn]
  exact or_iff_right nofun

theorem wears_of_outfit (h : w.outfit id = .ok o) :
    ∃ data?, w.component? id equipmentComponent = .ok data? ∧ Wears data? o.items := by
  rw [outfit_eq] at h
  obtain ⟨data?, hdata, h⟩ := Attempt.bind_eq_ok.1 h
  exact ⟨data?, hdata, wears_iff.2 (items_of_outfitOf h)⟩

/-- **Somebody wears what the text of the equipment component describes**, and nothing else. -/
theorem mem_toList_of_text {s : String} {data : Json} {x : Equipment.Worn} (htext : Json.ofText? s = some data)
    (hdata : w.component? id equipmentComponent = .ok (some data)) (h : w.outfit id = .ok o) :
    x ∈ o.items.toList ↔
      ∃ equipped, data.member? equippedMember = some equipped ∧ Equipment.Describes equipped x := by
  obtain ⟨data?, hdata?, hwears⟩ := wears_of_outfit h
  cases hdata.symm.trans hdata?
  rw [wears_iff.1 hwears]
  exact mem_toList_wornIn (Json.canonical_of_ofText? htext)

/-! ### Remarks -/

/-- **What is no declaration is remarked on**, with the reason, and nothing else is, if no reading fails. -/
theorem mem_coverageRemarks {items : List ItemId} {e : Event}
    (h : ∀ item ∈ items, ∃ data?, w.component? item coverageComponent = .ok data?) :
    e ∈ w.coverageRemarks id items ↔
      ∃ item ∈ items, ∃ data err, w.component? item coverageComponent = .ok (some data) ∧
        Coverage.ofJson item data = .error err ∧ e = coverageRemark id err := by
  induction items with
  | nil              => simp [coverageRemarks]
  | cons item items ih =>
      obtain ⟨⟨data?, hdata⟩, hrest⟩ := List.forall_mem_cons.1 h
      rw [List.exists_mem_cons_iff, ← ih hrest, coverageRemarks, hdata]
      cases data? with
      | none      => simp
      | some data => cases hread : Coverage.ofJson item data <;> simp [hread]

end World

/-! ### In a query -/

/-- **An outfit is what is worn, with what that declares.**  Wherever the outfit of an entity is asked for in
the course of a query, over whatever world:

* it takes one reading of the entity's equipment, and one of the declaration of each item of the equipment
  that this comes to; if one of them fails there is an error, which is the first fault in this order;
* else the items are what the equipment component comes to, which is nothing where the component, its
  member or its form is missing;
* what the outfit has of an item is what the item's component declares, if it is worn and declares anything;
* and the outfit has declarations if some item that is worn declares anything. -/
theorem Asking.loads_what_is_worn (a : Asking) (id : EntityId) (run : Run) :
    let w := a.scene.world
    let loaded := (a.outfitOf id).result run
    ((∃ err, loaded = .error err) ↔
      (∃ fault, w.component? id equipmentComponent = .error fault) ∨
      ∃ data? items slot layer item fault, w.component? id equipmentComponent = .ok data? ∧
        World.Wears data? items ∧ items.itemAt? slot layer = some item ∧
        w.component? item coverageComponent = .error fault) ∧
    (∀ err, loaded = .error err ↔
      ∃ fault, err = .unread fault ∧ (w.outfitReadings id).findSome? Attempt.error? = some fault) ∧
    ∀ o, loaded = .ok o →
      (∃ data?, w.component? id equipmentComponent = .ok data? ∧ World.Wears data? o.items) ∧
      (∀ item c, o.coverageOf? item = some c ↔
        (∃ slot layer, o.items.itemAt? slot layer = some item) ∧ w.Declares item c) ∧
      (o.hasCoverage ↔ ∃ slot layer item c, o.items.itemAt? slot layer = some item ∧ w.Declares item c) := by
  intro w loaded
  have hloaded : loaded = (w.outfit id).mapError .unread := (a.outfitOf_comesTo id).result_eq run
  have herror : ∀ err, loaded = .error err ↔
      ∃ fault, err = .unread fault ∧ (w.outfitReadings id).findSome? Attempt.error? = some fault := by
    intro err
    rw [hloaded, Attempt.mapError_eq_error]
    exact exists_congr fun fault => and_comm.trans (and_congr eq_comm World.outfit_eq_error)
  have hfails : (∃ err, loaded = .error err) ↔ ∃ fault, w.outfit id = .error fault := by
    simp only [hloaded, Attempt.mapError_eq_error]
    exact ⟨fun ⟨_, fault, h, _⟩ => ⟨fault, h⟩, fun ⟨fault, h⟩ => ⟨_, fault, h, rfl⟩⟩
  refine ⟨hfails.trans World.exists_outfit_eq_error, herror, fun o ho => ?_⟩
  have ho : w.outfit id = .ok o := Attempt.mapError_eq_ok.1 (hloaded.symm.trans ho)
  refine ⟨World.wears_of_outfit ho, fun item c => World.coverageOf?_of_outfit ho, ?_⟩
  simp only [Outfit.hasCoverage_iff, World.coverageOf?_of_outfit ho]
  constructor
  · rintro ⟨item, c, ⟨slot, layer, hworn⟩, hc⟩
    exact ⟨slot, layer, item, c, hworn, hc⟩
  · rintro ⟨slot, layer, item, c, hworn, hc⟩
    exact ⟨item, c, ⟨slot, layer, hworn⟩, hc⟩

/-- The squire wears a coat over chaps, and boots are at his feet in place of a layer.  The coat covers his
hips, and what the chaps declare is no declaration. -/
def squireInCoat : Store :=
  let worn := Json.object [("torso_upper", .object [("outer", .str "coat")]),
    ("legs", .object [("outer", .str "chaps")]), ("feet", .str "boots")]
  (((∅ : Store).insert "squire" equipmentComponent (.object [("equipped", worn)])).insert
    "coat" coverageComponent (Coverage.mk ["torso_lower"] .outer).toJson).insert
      "chaps" coverageComponent (.str "leather")

/-- The outfit knows what the coat declares, and of the chaps that they are worn.  If neither can be read, the
chaps are told of: the legs come before the torso. -/
theorem Asking.squire_is_loaded_in_coat :
    let asking : World → Asking := fun world => { actor := "squire", scene := { world } }
    let loaded := fun world => ((asking world).outfitOf "squire").result { scores := default }
    let plan : FaultPlan := { reads := [{ entity := some "coat" }, { entity := some "chaps" }] }
    let faulty := plan.applyTo squireInCoat.world
    (∃ o, loaded squireInCoat.world = .ok o ∧ o.items.slotNames = ["legs", "torso_upper"] ∧ o.hasCoverage ∧
      o.coverageOf? "coat" = some ⟨["torso_lower"], .outer⟩ ∧ o.coverageOf? "chaps" = none) ∧
    (∃ err, loaded faulty = .error err) ∧
    loaded faulty = .error (.unread (.unreadable "chaps" coverageComponent "fault")) := by
  intro asking loaded plan faulty
  obtain ⟨-, -, hloaded⟩ := (asking squireInCoat.world).loads_what_is_worn "squire" { scores := default }
  obtain ⟨hfails, hfirst, -⟩ := (asking faulty).loads_what_is_worn "squire" { scores := default }
  have hchaps : loaded faulty = .error (.unread (.unreadable "chaps" coverageComponent "fault")) :=
    (hfirst _).2 ⟨_, rfl, rfl⟩
  obtain ⟨o, ho⟩ : ∃ o, loaded squireInCoat.world = .ok o := ⟨_, rfl⟩
  obtain ⟨-, hcoverage, hdeclarations⟩ := hloaded o ho
  have hcoat : squireInCoat.world.Declares "coat" ⟨["torso_lower"], .outer⟩ := ⟨_, rfl, rfl⟩
  have hworn : o.items.itemAt? "torso_upper" .outer = some "coat" := by
    cases ho
    rfl
  have hchapsDeclare : ∀ c, ¬ squireInCoat.world.Declares "chaps" c := by
    rintro c ⟨data, hdata, hc⟩
    cases hdata
    cases hc
  refine ⟨⟨o, ho, ?_, hdeclarations.2 ⟨_, _, _, _, hworn, hcoat⟩, (hcoverage _ _).2 ⟨⟨_, _, hworn⟩, hcoat⟩,
    ?_⟩, hfails.2 (.inr ?_), hchaps⟩
  · cases ho
    rfl
  · exact Option.eq_none_iff_forall_ne_some.2 fun c hc => hchapsDeclare c ((hcoverage _ _).1 hc).2
  · exact ⟨some _, _, "legs", .outer, "chaps", _, rfl, World.wears_iff.2 rfl, rfl, rfl⟩

end EntityQuery
