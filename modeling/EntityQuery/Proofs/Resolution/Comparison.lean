import EntityQuery.Proofs.Resolution.Treatment

/-!
# Two resolutions compared

How a query goes in one context may be compared with how it goes in another: over another world, or under
other settings.  A comparison is a relation between parts of runs that is kept where parts follow one
another (`Comparison`).

* `Comparison.Alike.resolveNode`: if a comparison holds between all that resolvers ask of the one context and
  of the other, it holds between what each resolver makes of a node.
* `Comparison.Between.resolve`: if it also holds between the bounds of the two, it holds between the
  resolutions of every query, whichever resolvers the router knows.
* `Comparison.agreeing`: the comparison of parts that tell the same, unless the first of them ends in an
  error of a chosen kind.  It holds between what resolvers ask under settings that deal alike with failing
  predicates and with ties (`Comparison.agreeing_alike`).  Where no error is chosen, both tell the same
  (`Comparison.telling`).
-/

namespace EntityQuery

open Attire (BodySlot Look View)

/-! ### Nodes -/

namespace Query.Node

/-- Two nodes that differ in nothing but their branches, which are related. -/
inductive Related {β γ : Type} (P : β → γ → Prop) : Node β → Node γ → Prop where
  | root (root : Root) : Related P (.root root) (.root root)
  | step (field : String) (isArray : Bool) {p : β} {q : γ} (h : P p q) :
      Related P (.step field isArray p) (.step field isArray q)
  | filter (predicate : Json) {p : β} {q : γ} (h : P p q) :
      Related P (.filter predicate p) (.filter predicate q)
  | union {l r : β} {l' r' : γ} (hl : P l l') (hr : P r r') :
      Related P (.union l r) (.union l' r')
  | flatten {p : β} {q : γ} (h : P p q) : Related P (.flatten p) (.flatten q)

variable {β γ : Type} {P : β → γ → Prop} {m : Node β} {n : Node γ}

theorem Related.kind_eq (h : Related P m n) : n.kind = m.kind := by
  cases h <;> rfl

theorem Related.field?_eq (h : Related P m n) : n.field? = m.field? := by
  cases h <;> rfl

/-- A router sends a node where it goes, whatever its branches. -/
theorem Related.resolverFor?_eq (h : Related P m n) (router : Router) :
    router.resolverFor? n = router.resolverFor? m := by
  have haccepts : ∀ r : Resolver, r.accepts n = r.accepts m := by
    intro r
    cases r <;> simp only [Resolver.accepts, h.kind_eq, h.field?_eq]
  simp only [Router.resolverFor?, haccepts]

theorem Related.of_map (n : Node β) (f : β → γ) : Related (fun b b' => b' = f b) n (n.map f) := by
  cases n with
  | root root          => exact .root root
  | step field isArray => exact .step field isArray rfl
  | filter predicate   => exact .filter predicate rfl
  | union              => exact .union rfl rfl
  | flatten            => exact .flatten rfl

theorem resolverFor?_map (n : Node β) (f : β → γ) (router : Router) :
    router.resolverFor? (n.map f) = router.resolverFor? n :=
  (Related.of_map n f).resolverFor?_eq router

end Query.Node

/-! ### Comparisons -/

/-- A relation between parts of runs that is kept where parts follow one another. -/
structure Comparison where
  Holds : ∀ {α : Type}, Resolving α → Resolving α → Prop
  /-- A part that has a result and adds no entry compares with itself. -/
  silent : ∀ {α : Type} {x : Resolving α} {a : α}, x.Tells (.ok a) [] → Holds x x
  /-- A refusal for the shape of the query compares with itself. -/
  refusal : ∀ {α : Type} {e : QueryError}, e.isStructural →
    Holds (throw e : Resolving α) (throw e)
  bind : ∀ {α β : Type} {x y : Resolving α} {f g : α → Resolving β},
    Holds x y → (∀ a, Holds (f a) (g a)) → Holds (x >>= f) (y >>= g)

namespace Comparison

variable (R : Comparison) {α β ρ : Type}

/-! ### Parts one after the other -/

theorem pure (a : α) : R.Holds (pure a) (pure a) :=
  R.silent (.pure a)

theorem remark (events : Log) : R.Holds (Resolving.remark events) (Resolving.remark events) :=
  R.silent (Resolving.remark_tells events)

theorem look {x : Look α} {a : α} (h : x.Shows a) :
    R.Holds (Resolving.look x) (Resolving.look x) :=
  R.silent (Resolving.look_tells h)

theorem mapM {f g : α → Resolving β} (h : ∀ a, R.Holds (f a) (g a)) :
    ∀ as : List α, R.Holds (as.mapM f) (as.mapM g)
  | []      => R.pure []
  | a :: as => by
      rw [List.mapM_cons, List.mapM_cons]
      exact R.bind (h a) fun _ => R.bind (mapM h as) fun _ => R.pure _

theorem gather {f g : Candidate → Resolving (Contribution ρ)} (h : ∀ c, R.Holds (f c) (g c))
    (parent : CandidateSet) :
    R.Holds (Resolving.gather f parent) (Resolving.gather g parent) :=
  R.bind (R.mapM h parent.toList) fun _ => R.pure _

/-- Parts that tell the same, unless the first of them ends in an error of `Own`.  The errors that both
end in are those of `Common`, to which all refusals for the shape of the query belong. -/
def agreeing (Own Common : QueryError → Prop)
    (hstructural : ∀ e : QueryError, e.isStructural → Common e) : Comparison where
  Holds x y := ∃ r t, x.Tells r t ∧
    ((∃ e, r = .error e ∧ Own e) ∨ (∀ e, r = .error e → Common e) ∧ y.Tells r t)
  silent h := ⟨_, _, h, .inr ⟨nofun, h⟩⟩
  refusal h := by
    refine ⟨_, _, .throw _, .inr ⟨fun e he => ?_, .throw _⟩⟩
    cases he
    exact hstructural _ h
  bind := by
    rintro α β x y f g ⟨r, t, hx, hxy⟩ hfg
    cases r with
    | error e =>
        refine ⟨.error e, t, hx.bind_error f, ?_⟩
        rcases hxy with ⟨e', he', hOwn⟩ | ⟨hcommon, hy⟩
        · cases he'
          exact .inl ⟨e, rfl, hOwn⟩
        · refine .inr ⟨fun e' he' => ?_, hy.bind_error g⟩
          cases he'
          exact hcommon e rfl
    | ok a =>
        obtain ⟨s, u, hf, hfg⟩ := hfg a
        refine ⟨s, t ++ u, hx.bind_ok hf, ?_⟩
        rcases hxy with ⟨e, ⟨⟩, -⟩ | ⟨-, hy⟩
        exact hfg.imp id fun ⟨hcommon, hg⟩ => ⟨hcommon, hy.bind_ok hg⟩

section Agreeing

variable {Own Common : QueryError → Prop} {hstructural : ∀ e : QueryError, e.isStructural → Common e}
  {x y : Resolving α} {r s : Except QueryError α} {t : Trace}

/-- Parts that add the same entries agree if their results do. -/
theorem agreeing_of_tells (hx : x.Tells r t) (hy : y.Tells s t)
    (h : Attempt.SameUnless Own Common r s) : (agreeing Own Common hstructural).Holds x y := by
  rcases h with h | ⟨hcommon, rfl⟩
  · exact ⟨r, t, hx, .inl h⟩
  · exact ⟨s, t, hx, .inr ⟨hcommon, hy⟩⟩

/-- What comes to a result, or to an error of `Common`, agrees with itself. -/
theorem agreeing_self (h : x.ComesTo r) (hr : ∀ e, r = .error e → Common e) :
    (agreeing Own Common hstructural).Holds x x := by
  obtain ⟨t, ht⟩ := h
  exact agreeing_of_tells ht ht (.refl hr)

end Agreeing

/-- Parts that tell the same. -/
def telling : Comparison :=
  agreeing (fun _ => False) (fun _ => True) fun _ _ => trivial

theorem telling_of_tells {x y : Resolving α} {r : Except QueryError α} {t : Trace} (hx : x.Tells r t)
    (hy : y.Tells r t) : telling.Holds x y :=
  ⟨r, t, hx, .inr ⟨fun _ _ => trivial, hy⟩⟩

theorem tells_of_telling {x y : Resolving α} (h : telling.Holds x y) :
    ∃ r t, x.Tells r t ∧ y.Tells r t := by
  obtain ⟨r, t, hx, ⟨_, _, hfalse⟩ | ⟨-, hy⟩⟩ := h
  · exact hfalse.elim
  · exact ⟨r, t, hx, hy⟩

/-! ### What resolvers ask -/

/-- What resolvers ask of `a` compares with what they ask of `b`. -/
structure Alike (a b : Asking) : Prop where
  actor : b.actor = a.actor
  location : b.scene.location = a.scene.location
  tieBreak : b.settings.tieBreak = a.settings.tieBreak
  component : ∀ id field, R.Holds (Resolving.read (a.scene.world.component? id field))
    (Resolving.read (b.scene.world.component? id field))
  holders : ∀ component, R.Holds (Resolving.read (a.scene.world.holders component))
    (Resolving.read (b.scene.world.holders component))
  outfit : ∀ id, R.Holds (a.outfitOf id) (b.outfitOf id)
  keep : ∀ predicate c, R.Holds (a.keep predicate Resolver.filter.name c)
    (b.keep predicate Resolver.filter.name c)
  note : ∀ entry, entry.level = .info → R.Holds (a.note entry) (b.note entry)

variable {R} {a b : Asking}

theorem unresolved (R : Comparison) (d : Descriptor) :
    R.Holds (Asking.unresolved d : Resolving α) (Asking.unresolved d) :=
  R.refusal rfl

/-- Of the settings, resolvers ask for two only: how to deal with predicates that fail and with ties. -/
theorem agreeing_alike {Own : QueryError → Prop} (a : Asking) {s : Settings}
    (hstrict : s.strictFilters = a.settings.strictFilters) (htieBreak : s.tieBreak = a.settings.tieBreak) :
    (agreeing Own (fun _ => True) fun _ _ => trivial).Alike a { a with settings := s } where
  actor := rfl
  location := rfl
  tieBreak := htieBreak
  component _ _ := agreeing_self (Resolving.read_comesTo _) fun _ _ => trivial
  holders _ := agreeing_self (Resolving.read_comesTo _) fun _ _ => trivial
  outfit id := agreeing_self (a.outfitOf_comesTo id) fun _ _ => trivial
  keep predicate c := by
    have hkeep : Asking.keep { a with settings := s } = a.keep := by
      unfold Asking.keep
      rw [hstrict]
      rfl
    obtain ⟨r, hr, -⟩ := a.keep_finds predicate Resolver.filter.name c
    rw [hkeep]
    exact agreeing_self hr fun _ _ => trivial
  note entry _ := agreeing_self (a.note_comesTo entry) fun _ _ => trivial

namespace Alike

variable (h : R.Alike a b)
include h

theorem fieldData? (field : String) (c : Candidate) :
    R.Holds (a.fieldData? field c) (b.fieldData? field c) := by
  cases c with
  | entity id    => exact h.component id field
  | value v      => exact R.pure _
  | descriptor d => exact R.unresolved d

theorem readField (field : String) (report : ρ) (c : Candidate) :
    R.Holds (a.readField field report c) (b.readField field report c) := by
  refine R.bind (h.fieldData? field c) fun data? => ?_
  cases data? <;> exact R.pure _

theorem viewOutfit (view : View) (isArray : Bool) (c : Candidate) :
    R.Holds (a.viewOutfit view isArray c) (b.viewOutfit view isArray c) := by
  cases c with
  | value v      => exact R.pure _
  | descriptor d => exact R.unresolved d
  | entity id    =>
      refine R.bind (h.outfit id) fun outfit => ?_
      rw [h.tieBreak]
      cases isArray with
      | false => exact R.pure _
      | true  =>
          refine R.bind (R.look (outfit.look_shows a.settings.tieBreak view)) fun finding => ?_
          exact R.bind (R.remark _) fun _ => R.pure _

theorem viewSlot (slot : BodySlot) (c : Candidate) :
    R.Holds (a.viewSlot slot c) (b.viewSlot slot c) := by
  cases c with
  | entity id    => exact h.readField slot.name none (.entity id)
  | value v      => exact h.readField slot.name none (.value v)
  | descriptor d =>
      unfold Asking.viewSlot
      rw [h.tieBreak]
      refine R.bind (R.look (d.outfit.lookAtSlot_shows a.settings.tieBreak slot.name d.view))
        fun finding => ?_
      exact R.bind (R.remark _) fun _ => R.pure _

theorem flatten (c : Candidate) : R.Holds (a.flatten c) (b.flatten c) := by
  cases c with
  | entity id    => exact R.pure _
  | value v      => cases v <;> exact R.pure _
  | descriptor d =>
      unfold Asking.flatten
      rw [h.tieBreak]
      exact R.bind (R.look (d.outfit.look_shows a.settings.tieBreak d.view)) fun _ => R.pure _

/-! ### Nodes -/

/-- An entry on what was made compares, if what was made does. -/
theorem noted {x y : Resolving α} (hxy : R.Holds x y) {entry : α → Trace.Entry}
    (hentry : ∀ made, (entry made).level = .info) (f : α → β) :
    R.Holds (do let made ← x; a.note (entry made); return f made)
      (do let made ← y; b.note (entry made); return f made) :=
  R.bind hxy fun made => R.bind (h.note (entry made) (hentry made)) fun _ => R.pure (f made)

theorem fromRoot (root : Root) : R.Holds (a.fromRoot root) (b.fromRoot root) := by
  unfold Asking.fromRoot
  cases root with
  | entities component =>
      have hids := R.bind (h.holders component) fun ids => R.pure (CandidateSet.ofEntities ids)
      exact h.noted hids (fun _ => rfl) id
  | actor =>
      rw [h.actor]
      exact h.noted (R.pure _) (fun _ => rfl) id
  | location =>
      rw [h.location]
      exact h.noted (R.pure _) (fun _ => rfl) id
  | none => exact h.noted (R.pure _) (fun _ => rfl) id

/-- A node that gathers and makes an entry of it compares, if the contributions do. -/
theorem gathered {x y : Candidate → Resolving (Contribution ρ)} (hxy : ∀ c, R.Holds (x c) (y c))
    (parent : CandidateSet) {entry : CandidateSet × List ρ → Trace.Entry}
    (hentry : ∀ made, (entry made).level = .info) :
    R.Holds (do
        let gathered ← Resolving.gather x parent
        a.note (entry gathered)
        return gathered.1)
      (do
        let gathered ← Resolving.gather y parent
        b.note (entry gathered)
        return gathered.1) :=
  h.noted (R.gather hxy parent) hentry (·.1)

theorem alongField (field : String) (isArray : Bool) (parent : CandidateSet) :
    R.Holds (a.alongField field isArray parent) (b.alongField field isArray parent) :=
  h.gathered (h.readField field ()) parent fun _ => rfl

theorem alongView (view : View) (isArray : Bool) (parent : CandidateSet) :
    R.Holds (a.alongView view isArray parent) (b.alongView view isArray parent) :=
  h.gathered (h.viewOutfit view isArray) parent fun _ => rfl

theorem alongSlot (slot : BodySlot) (parent : CandidateSet) :
    R.Holds (a.alongSlot slot parent) (b.alongSlot slot parent) :=
  h.gathered (h.viewSlot slot) parent fun _ => rfl

theorem filtered (predicate : Json) (parent : CandidateSet) :
    R.Holds (a.filtered predicate parent) (b.filtered predicate parent) :=
  h.gathered (h.keep predicate) parent fun _ => rfl

theorem flattened (parent : CandidateSet) :
    R.Holds (a.flattened parent) (b.flattened parent) :=
  h.gathered h.flatten parent fun _ => rfl

theorem united (left right : CandidateSet) :
    R.Holds (a.united left right) (b.united left right) :=
  R.bind (h.note _ rfl) fun _ => R.pure _

/-- What a resolver makes of a node compares, if what the branches resolve to does. -/
theorem resolveNode (r : Resolver) {m n : Query.Node (Resolving CandidateSet)}
    (hmn : m.Related R.Holds n) : R.Holds (r.resolve a m) (r.resolve b n) := by
  -- A resolver refuses the nodes of all kinds but one.
  cases r with
  | source =>
      cases hmn with
      | root root => exact h.fromRoot root
      | step | filter | union | flatten => exact R.refusal rfl
  | step =>
      cases hmn with
      | step field isArray hp => exact R.bind hp fun parent => h.alongField field isArray parent
      | root | filter | union | flatten => exact R.refusal rfl
  | filter =>
      cases hmn with
      | filter predicate hp => exact R.bind hp fun parent => h.filtered predicate parent
      | root | step | union | flatten => exact R.refusal rfl
  | union =>
      cases hmn with
      | union hl hr => exact R.bind hl fun left => R.bind hr fun right => h.united left right
      | root | step | filter | flatten => exact R.refusal rfl
  | arrayIteration =>
      cases hmn with
      | flatten hp => exact R.bind hp fun parent => h.flattened parent
      | root | step | filter | union => exact R.refusal rfl
  | clothing =>
      cases hmn with
      | step field isArray hp =>
          simp only [Resolver.resolve]
          cases View.ofField? field with
          | none      => exact R.refusal rfl
          | some view => exact R.bind hp fun parent => h.alongView view isArray parent
      | root | filter | union | flatten => exact R.refusal rfl
  | slot =>
      cases hmn with
      | step field isArray hp =>
          simp only [Resolver.resolve]
          cases BodySlot.ofName? field with
          | none          => exact R.refusal rfl
          | some bodySlot => exact R.bind hp fun parent => h.alongSlot bodySlot parent
      | root | filter | union | flatten => exact R.refusal rfl

end Alike

end Comparison

/-! ### Dispatch -/

namespace Context

variable (c : Context)

/-- The bound on the depth, as a part of a run. -/
def boundDepth (depth : Nat) : Resolving Unit :=
  if c.settings.maxDepth ≤ depth then throw (.depthExceeded c.settings.maxDepth) else pure ()

/-- The bound on the size of what was made, as a part of a run. -/
def boundSize (s : CandidateSet) : Resolving CandidateSet := do
  if c.settings.maxCandidates < s.size then
    throw (.tooManyCandidates s.size c.settings.maxCandidates)
  return s

/-- What the router does with a node within the bound on the depth. -/
def route (depth : Nat) (n : Query.Node (Resolving CandidateSet)) : Resolving CandidateSet :=
  match c.router.resolverFor? n with
  | none   => throw (.noResolver n.kind)
  | some r => do
      Resolving.remark
        [{ severity := .trace
           message := "dispatching"
           fields := [("resolver", .str r.name), ("kind", .str n.kind.name), ("depth", .ofNat depth)] }]
      c.boundSize (← r.resolve c.toAsking n)

/-- A dispatch is the routing of a node, with a bound before and a bound behind it. -/
theorem dispatch_eq (depth : Nat) (n : Query.Node (Resolving CandidateSet)) :
    c.dispatch depth n = (do c.boundDepth depth; c.route depth n) := by
  unfold dispatch boundDepth route
  cases c.router.resolverFor? n <;> dsimp only <;> split <;> rfl

end Context

namespace Comparison

variable (R : Comparison)

theorem boundDepth (c : Context) (depth : Nat) :
    R.Holds (c.boundDepth depth) (c.boundDepth depth) := by
  unfold Context.boundDepth
  split
  · exact R.refusal rfl
  · exact R.pure ()

theorem boundSize (c : Context) (s : CandidateSet) :
    R.Holds (c.boundSize s) (c.boundSize s) := by
  unfold Context.boundSize
  split
  · exact R.bind (R.refusal rfl) fun _ => R.pure s
  · exact R.pure s

/-- Two contexts with one router that are alike in what resolvers ask of them, and in their bounds. -/
structure Between (c d : Context) : Prop extends R.Alike c.toAsking d.toAsking where
  router : d.router = c.router
  depth : ∀ depth, R.Holds (c.boundDepth depth) (d.boundDepth depth)
  size : ∀ s, R.Holds (c.boundSize s) (d.boundSize s)

namespace Between

variable {R} {c d : Context} (h : R.Between c d)
include h

theorem dispatch (depth : Nat) {m n : Query.Node (Resolving CandidateSet)}
    (hmn : m.Related R.Holds n) : R.Holds (c.dispatch depth m) (d.dispatch depth n) := by
  rw [Context.dispatch_eq, Context.dispatch_eq]
  refine R.bind (h.depth depth) fun _ => ?_
  unfold Context.route
  rw [h.router, hmn.resolverFor?_eq, hmn.kind_eq]
  cases c.router.resolverFor? m with
  | none   => exact R.refusal rfl
  | some r =>
      refine R.bind (R.remark _) fun _ => ?_
      exact R.bind (h.toAlike.resolveNode r hmn) h.size

/-- **The resolutions of a query in two such contexts compare.** -/
theorem resolve (q : Query) (depth : Nat) :
    R.Holds (c.resolve q depth) (d.resolve q depth) := by
  induction q generalizing depth with
  | root root                     => exact h.dispatch depth (.root root)
  | step field isArray parent ih  => exact h.dispatch depth (.step field isArray (ih (depth + 1)))
  | filter predicate parent ih    => exact h.dispatch depth (.filter predicate (ih (depth + 1)))
  | union left right ihl ihr      =>
      exact h.dispatch depth (.union (ihl (depth + 1)) (ihr (depth + 1)))
  | flatten parent ih             => exact h.dispatch depth (.flatten (ih (depth + 1)))

end Between

end Comparison

end EntityQuery
