/-!
# Attempts

What comes of one attempt after another, and of an attempt with each element of a list: a result, if all
succeed, and otherwise the first error.
-/

namespace EntityQuery.Attempt

variable {ε α β γ : Type}

theorem bind_eq_ok {x : Except ε α} {f : α → Except ε β} {b : β} :
    x >>= f = .ok b ↔ ∃ a, x = .ok a ∧ f a = .ok b := by
  cases x with
  | ok a =>
      refine ⟨fun h => ⟨a, rfl, h⟩, ?_⟩
      rintro ⟨_, ⟨⟩, h⟩
      exact h
  | error e => exact ⟨nofun, by rintro ⟨_, ⟨⟩, -⟩⟩

theorem bind_eq_error {x : Except ε α} {f : α → Except ε β} {e : ε} :
    x >>= f = .error e ↔ x = .error e ∨ ∃ a, x = .ok a ∧ f a = .error e := by
  cases x with
  | ok a =>
      refine ⟨fun h => .inr ⟨a, rfl, h⟩, ?_⟩
      rintro (⟨⟨⟩⟩ | ⟨_, ⟨⟩, h⟩)
      exact h
  | error e' =>
      refine ⟨fun h => .inl (congrArg _ (Except.error.inj h)), ?_⟩
      rintro (h | ⟨_, ⟨⟩, -⟩)
      exact congrArg _ (Except.error.inj h)

theorem map_eq_ok {x : Except ε α} {f : α → β} {b : β} :
    x.map f = .ok b ↔ ∃ a, x = .ok a ∧ f a = b := by
  cases x with
  | ok a =>
      refine ⟨fun h => ⟨a, rfl, Except.ok.inj h⟩, ?_⟩
      rintro ⟨_, ⟨⟩, rfl⟩
      rfl
  | error e => exact ⟨nofun, by rintro ⟨_, ⟨⟩, -⟩⟩

theorem map_eq_error {x : Except ε α} {f : α → β} {e : ε} :
    x.map f = .error e ↔ x = .error e := by
  cases x with
  | ok a     => exact ⟨nofun, nofun⟩
  | error e' =>
      exact ⟨fun h => congrArg _ (Except.error.inj h), fun h => congrArg _ (Except.error.inj h)⟩

theorem mapError_eq_ok {ε' : Type} {x : Except ε α} {f : ε → ε'} {a : α} :
    x.mapError f = .ok a ↔ x = .ok a := by
  cases x with
  | ok a    => exact ⟨fun h => congrArg _ (Except.ok.inj h), fun h => congrArg _ (Except.ok.inj h)⟩
  | error e => exact ⟨nofun, nofun⟩

theorem mapError_eq_error {ε' : Type} {x : Except ε α} {f : ε → ε'} {e' : ε'} :
    x.mapError f = .error e' ↔ ∃ e, x = .error e ∧ f e = e' := by
  cases x with
  | ok a    => exact ⟨nofun, by rintro ⟨_, ⟨⟩, -⟩⟩
  | error e =>
      refine ⟨fun h => ⟨e, rfl, Except.error.inj h⟩, ?_⟩
      rintro ⟨_, ⟨⟩, rfl⟩
      rfl

theorem toOption_bind (x : Except ε α) (f : α → Except ε β) :
    (x >>= f).toOption = x.toOption.bind fun a => (f a).toOption := by
  cases x <;> rfl

/-! ### An attempt with each element -/

theorem toOption_mapM (f : α → Except ε β) (as : List α) :
    (as.mapM f).toOption = as.mapM fun a => (f a).toOption := by
  induction as with
  | nil => rfl
  | cons a as ih =>
      rw [List.mapM_cons, List.mapM_cons, toOption_bind, ← ih]
      refine congrArg _ (funext fun b => ?_)
      cases as.mapM f <;> rfl

theorem mapM_map (f : α → Except ε β) (g : β → γ) (as : List α) :
    (as.mapM fun a => (f a).map g) = (as.mapM f).map (List.map g) := by
  induction as with
  | nil => rfl
  | cons a as ih =>
      rw [List.mapM_cons, List.mapM_cons, ih]
      cases f a with
      | error e => rfl
      | ok b    => cases as.mapM f <;> rfl

/-- Each element has its result among the results. -/
theorem exists_of_mapM_eq_ok {f : α → Except ε β} {as : List α} {bs : List β}
    (h : as.mapM f = .ok bs) {a : α} (ha : a ∈ as) : ∃ b ∈ bs, f a = .ok b := by
  induction as generalizing bs with
  | nil => cases ha
  | cons a' as ih =>
      rw [List.mapM_cons, bind_eq_ok] at h
      obtain ⟨b, hb, h⟩ := h
      obtain ⟨bs', hbs, h⟩ := bind_eq_ok.1 h
      cases h
      rcases List.mem_cons.1 ha with rfl | ha
      · exact ⟨b, List.mem_cons_self, hb⟩
      · obtain ⟨b', hb', hf⟩ := ih hbs ha
        exact ⟨b', List.mem_cons_of_mem b hb', hf⟩

/-- Each of the results is that of an element. -/
theorem exists_of_mem_mapM {f : α → Except ε β} {as : List α} {bs : List β}
    (h : as.mapM f = .ok bs) {b : β} (hb : b ∈ bs) : ∃ a ∈ as, f a = .ok b := by
  induction as generalizing bs with
  | nil =>
      cases h
      cases hb
  | cons a as ih =>
      rw [List.mapM_cons, bind_eq_ok] at h
      obtain ⟨b', hb', h⟩ := h
      obtain ⟨bs', hbs, h⟩ := bind_eq_ok.1 h
      cases h
      rcases List.mem_cons.1 hb with rfl | hb
      · exact ⟨a, List.mem_cons_self, hb'⟩
      · obtain ⟨a', ha', hf⟩ := ih hbs hb
        exact ⟨a', List.mem_cons_of_mem a ha', hf⟩

/-- The error is that of an element. -/
theorem exists_of_mapM_eq_error {f : α → Except ε β} {as : List α} {e : ε}
    (h : as.mapM f = .error e) : ∃ a ∈ as, f a = .error e := by
  induction as with
  | nil => cases h
  | cons a as ih =>
      rw [List.mapM_cons, bind_eq_error] at h
      rcases h with h | ⟨b, -, h⟩
      · exact ⟨a, List.mem_cons_self, h⟩
      · rcases bind_eq_error.1 h with h | ⟨bs, -, ⟨⟩⟩
        obtain ⟨a', ha', hf⟩ := ih h
        exact ⟨a', List.mem_cons_of_mem a ha', hf⟩

/-- Where an element fails, there is no result. -/
theorem mapM_eq_error_of_mem {f : α → Except ε β} {as : List α} {a : α} {e : ε} (ha : a ∈ as)
    (hf : f a = .error e) : ∃ e', as.mapM f = .error e' := by
  cases h : as.mapM f with
  | error e' => exact ⟨e', rfl⟩
  | ok bs =>
      obtain ⟨b, -, hb⟩ := exists_of_mapM_eq_ok h ha
      rw [hf] at hb
      cases hb

/-- What fails with the same elements for the same reasons, fails for the same reason first. -/
theorem mapM_eq_error_congr {f : α → Except ε β} {g : α → Except ε γ}
    (h : ∀ a e, f a = .error e ↔ g a = .error e) (as : List α) (e : ε) :
    as.mapM f = .error e ↔ as.mapM g = .error e := by
  induction as with
  | nil => exact ⟨nofun, nofun⟩
  | cons a as ih =>
      rw [List.mapM_cons, List.mapM_cons]
      cases hf : f a with
      | error e' =>
          rw [(h a e').1 hf]
          exact ⟨fun h => congrArg _ (Except.error.inj h), fun h => congrArg _ (Except.error.inj h)⟩
      | ok b =>
          cases hg : g a with
          | error e' => cases hf.symm.trans ((h a e').2 hg)
          | ok c =>
              show (do let bs ← as.mapM f; pure (b :: bs)) = _ ↔ (do let cs ← as.mapM g; pure (c :: cs)) = _
              rw [bind_pure_comp, bind_pure_comp]
              exact map_eq_error.trans (ih.trans map_eq_error.symm)

/-- All succeed if each does, and the results are theirs. -/
theorem mapM_eq_ok_iff {f : α → Except ε β} {as : List α} {bs : List β} (default : β) :
    as.mapM f = .ok bs ↔
      (∀ a ∈ as, ∃ b, f a = .ok b) ∧ bs = as.map fun a => (f a).toOption.getD default := by
  induction as generalizing bs with
  | nil =>
      refine ⟨fun h => ⟨nofun, (Except.ok.inj h).symm⟩, ?_⟩
      rintro ⟨-, rfl⟩
      rfl
  | cons a as ih =>
      rw [List.mapM_cons, bind_eq_ok, List.forall_mem_cons, List.map_cons]
      constructor
      · rintro ⟨b, hb, h⟩
        obtain ⟨bs', hbs, h⟩ := bind_eq_ok.1 h
        obtain ⟨hall, rfl⟩ := ih.1 hbs
        cases h
        rw [hb]
        exact ⟨⟨⟨b, rfl⟩, hall⟩, rfl⟩
      · rintro ⟨⟨⟨b, hb⟩, hall⟩, rfl⟩
        rw [hb]
        exact ⟨b, rfl, bind_eq_ok.2 ⟨_, ih.2 ⟨hall, rfl⟩, rfl⟩⟩

/-- In another order the same attempts succeed, with the same results in that order. -/
theorem mapM_perm {f : α → Except ε β} {as as' : List α} {bs : List β} (default : β) (h : as.Perm as')
    (hbs : as.mapM f = .ok bs) : ∃ bs', as'.mapM f = .ok bs' ∧ bs.Perm bs' := by
  obtain ⟨hall, rfl⟩ := (mapM_eq_ok_iff default).1 hbs
  exact ⟨_, (mapM_eq_ok_iff default).2 ⟨fun a ha => hall a (h.mem_iff.2 ha), rfl⟩, h.map _⟩

/-- What each attempt of a fold preserves, the fold preserves. -/
theorem foldlM_preserves {f : β → α → Except ε β} {P : β → Prop}
    (hstep : ∀ b a b', P b → f b a = .ok b' → P b') {as : List α} {b b' : β} (hb : P b)
    (h : as.foldlM f b = .ok b') : P b' := by
  induction as generalizing b with
  | nil =>
      cases h
      exact hb
  | cons a as ih =>
      rw [List.foldlM_cons] at h
      obtain ⟨b'', ha, h⟩ := bind_eq_ok.1 h
      exact ih (hstep b a b'' hb ha) h

/-! ### First errors -/

/-- The error that an attempt ended in. -/
def error? : Except ε α → Option ε
  | .ok _    => none
  | .error e => some e

/-- A fold of attempts that fail as `g` does ends in the first error of `g`. -/
theorem foldlM_eq_error {f : β → α → Except ε β} {g : α → Except ε γ}
    (h : ∀ b a e, f b a = .error e ↔ g a = .error e) {as : List α} {b : β} {e : ε} :
    as.foldlM f b = .error e ↔ (as.map g).findSome? error? = some e := by
  induction as generalizing b with
  | nil          => exact ⟨nofun, nofun⟩
  | cons a as ih =>
      rw [List.foldlM_cons, List.map_cons]
      cases hg : g a with
      | error e' =>
          rw [(h b a e').2 hg]
          exact ⟨fun h => congrArg some (Except.error.inj h), fun h => congrArg _ (Option.some.inj h)⟩
      | ok c     =>
          cases hf : f b a with
          | ok b'    => exact ih
          | error e' => cases hg.symm.trans ((h b a e').1 hf)

theorem exists_first_error {as : List (Except ε α)} :
    (∃ e, as.findSome? error? = some e) ↔ ∃ a ∈ as, ∃ e, a = .error e := by
  have herror : ∀ a : Except ε α, (error? a).isSome ↔ ∃ e, a = .error e := by
    rintro (e | b)
    · exact ⟨fun _ => ⟨e, rfl⟩, fun _ => rfl⟩
    · exact ⟨nofun, nofun⟩
  rw [← Option.isSome_iff_exists, List.findSome?_isSome_iff]
  simp only [herror]

/-! ### Attempts that may differ in errors -/

/-- `y` is what `x` is, unless `x` is an error of `Own`.  An error of both is one of `Common`. -/
def SameUnless (Own Common : ε → Prop) (x y : Except ε α) : Prop :=
  (∃ e, x = .error e ∧ Own e) ∨ (∀ e, x = .error e → Common e) ∧ y = x

namespace SameUnless

variable {Own Common : ε → Prop} {x y : Except ε α}

theorem refl (h : ∀ e, x = .error e → Common e) : SameUnless Own Common x x :=
  .inr ⟨h, rfl⟩

theorem ok (a : α) : SameUnless Own Common (.ok a) (.ok a) :=
  refl nofun

theorem error {e : ε} (h : Common e) : SameUnless Own Common (.error e : Except ε α) (.error e) := by
  refine refl fun e' he => ?_
  cases he
  exact h

/-- What answers all that `x` answers differs from it in the errors of `x` only. -/
theorem of_ok (hok : ∀ a, x = .ok a → y = .ok a) (herror : ∀ e, x = .error e → Own e) :
    SameUnless Own Common x y := by
  cases x with
  | ok a    => exact .inr ⟨nofun, hok a rfl⟩
  | error e => exact .inl ⟨e, rfl, herror e rfl⟩

theorem bind {f g : α → Except ε β} (hxy : SameUnless Own Common x y)
    (hfg : ∀ a, SameUnless Own Common (f a) (g a)) : SameUnless Own Common (x >>= f) (y >>= g) := by
  rcases hxy with ⟨e, rfl, he⟩ | ⟨hcommon, rfl⟩
  · exact .inl ⟨e, rfl, he⟩
  · cases y with
    | ok a    => exact hfg a
    | error e => exact error (hcommon e rfl)

theorem map (hxy : SameUnless Own Common x y) (f : α → β) :
    SameUnless Own Common (x.map f) (y.map f) := by
  have h := hxy.bind fun a => ok (f a)
  cases x <;> cases y <;> exact h

/-- Errors told in other words. -/
theorem mapError {ε' : Type} {f : ε → ε'} {Own' Common' : ε' → Prop}
    (hxy : SameUnless Own Common x y) (hOwn : ∀ e, Own e → Own' (f e))
    (hCommon : ∀ e, Common e → Common' (f e)) :
    SameUnless Own' Common' (x.mapError f) (y.mapError f) := by
  rcases hxy with ⟨e, rfl, he⟩ | ⟨hcommon, rfl⟩
  · exact .inl ⟨f e, rfl, hOwn e he⟩
  · cases y with
    | ok a    => exact ok a
    | error e => exact error (hCommon e (hcommon e rfl))

theorem foldlM {f g : β → α → Except ε β} (hfg : ∀ b a, SameUnless Own Common (f b a) (g b a)) :
    ∀ (as : List α) (b : β), SameUnless Own Common (as.foldlM f b) (as.foldlM g b)
  | [],      b => ok b
  | a :: as, b => by
      rw [List.foldlM_cons, List.foldlM_cons]
      exact (hfg b a).bind fun b' => foldlM hfg as b'

end SameUnless

end EntityQuery.Attempt
