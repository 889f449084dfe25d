import EntityQuery.Proofs.Resolution.Bounds
import EntityQuery.Proofs.Resolution.Faithful
import EntityQuery.World.Store

/-!
# Occurrences

A set keeps one of several candidates with one key, and a resolution makes a set at every node.  Suppose
it did not, and kept every occurrence of a candidate all along (`Context.occurrences`).  In the end it would
come to the same set:

* `Context.forall_mem_occurrences`: what holds of entities, and of all that is found in a candidate of
  which it holds, holds of every occurrence.  So descriptors are faithful wherever they occur.
* `Asking.treat_ofList`: candidates of one key being equal, it makes no difference to what is found in them
  whether doubles are left out before.
* `Context.resolve_collects`: so a query comes to the set of its occurrences, unless it hits a bound,
  whichever resolvers the router knows.
-/

namespace EntityQuery

open Attire (BodySlot View)

/-! ### Without sets -/

namespace Asking

variable (a : Asking)

/-- The entities that a root stands for, each as often as it is named. -/
def rootIds : Root → Except QueryError (List EntityId)
  | .actor              => .ok [a.actor]
  | .location           => .ok a.scene.location.toList
  | .entities component => (a.scene.world.holders component).mapError .unread
  | .none               => .ok []

/-- All that a treatment finds in candidates, one after the other. -/
def treatAll (t : Treatment) (cs : List Candidate) : Except QueryError (List Candidate) :=
  (cs.mapM (a.found t)).map List.flatten

/-- What a resolver makes of the occurrences in the branches of a node. -/
def occurrencesBy (r : Resolver) (n : Query.Node (Except QueryError (List Candidate))) :
    Except QueryError (List Candidate) :=
  match r, n with
  | .source,         .root root           => (a.rootIds root).map (·.map .entity)
  | .step,           .step field _ p      => p >>= a.treatAll (.field field)
  | .filter,         .filter predicate p  => p >>= a.treatAll (.filter predicate)
  | .union,          .union left right    => do
      let left ← left
      return left ++ (← right)
  | .arrayIteration, .flatten p           => p >>= a.treatAll .flatten
  | .clothing,       .step field isArray p =>
      match View.ofField? field with
      | some view => p >>= a.treatAll (.view view isArray)
      | none      => .error (.noResolver .step)
  | .slot,           .step field _ p      =>
      match BodySlot.ofName? field with
      | some bodySlot => p >>= a.treatAll (.slot bodySlot)
      | none          => .error (.noResolver .step)
  | _,               n                    => .error (.noResolver n.kind)

end Asking

namespace Context

variable (c : Context)

/-- The occurrences at a node, made by the resolver that it goes to. -/
def occurrencesAt (n : Query.Node (Except QueryError (List Candidate))) :
    Except QueryError (List Candidate) :=
  match c.router.resolverFor? n with
  | none   => .error (.noResolver n.kind)
  | some r => c.occurrencesBy r n

/-- All candidates that a query comes upon, each as often as it does, and within no bounds. -/
def occurrences (c : Context) : Query → Except QueryError (List Candidate)
  | .root root                 => c.occurrencesAt (.root root)
  | .step field isArray parent => c.occurrencesAt (.step field isArray (c.occurrences parent))
  | .filter predicate parent   => c.occurrencesAt (.filter predicate (c.occurrences parent))
  | .union left right          => c.occurrencesAt (.union (c.occurrences left) (c.occurrences right))
  | .flatten parent            => c.occurrencesAt (.flatten (c.occurrences parent))

theorem occurrences_eq (q : Query) : c.occurrences q = c.occurrencesAt (q.node.map c.occurrences) := by
  cases q <;> rfl

end Context

/-! ### What holds of every occurrence -/

namespace Asking

variable (a : Asking) {P : Candidate → Prop}

/-- What holds of entities, and of all that is found in a candidate of which it holds. -/
structure Inherits (P : Candidate → Prop) : Prop where
  entity : ∀ id, P (.entity id)
  found : ∀ {t c found}, a.found t c = .ok found → P c → ∀ d ∈ found, P d

variable {a}

theorem Inherits.treatAll (h : a.Inherits P) {t : Treatment} {os : Except QueryError (List Candidate)}
    (hos : ∀ cs, os = .ok cs → ∀ c ∈ cs, P c) {ds : List Candidate}
    (hds : os >>= a.treatAll t = .ok ds) : ∀ d ∈ ds, P d := by
  obtain ⟨cs, hcs, hds⟩ := Attempt.bind_eq_ok.1 hds
  obtain ⟨founds, hfounds, rfl⟩ := Attempt.map_eq_ok.1 hds
  intro d hd
  obtain ⟨found, hfound, hd⟩ := List.mem_flatten.1 hd
  obtain ⟨c, hc, hcfound⟩ := Attempt.exists_of_mem_mapM hfounds hfound
  exact h.found hcfound (hos cs hcs c hc) d hd

theorem Inherits.occurrencesBy (h : a.Inherits P) {r : Resolver}
    {n : Query.Node (Except QueryError (List Candidate))}
    (hn : ∀ os ∈ n.branches, ∀ cs, os = .ok cs → ∀ c ∈ cs, P c) {cs : List Candidate}
    (hcs : a.occurrencesBy r n = .ok cs) : ∀ c ∈ cs, P c := by
  unfold Asking.occurrencesBy at hcs
  split at hcs
  · obtain ⟨ids, -, rfl⟩ := Attempt.map_eq_ok.1 hcs
    intro c hc
    obtain ⟨id, -, rfl⟩ := List.mem_map.1 hc
    exact h.entity id
  · exact h.treatAll (hn _ List.mem_cons_self) hcs
  · exact h.treatAll (hn _ List.mem_cons_self) hcs
  · obtain ⟨left, hleft, hcs⟩ := Attempt.bind_eq_ok.1 hcs
    obtain ⟨right, hright, hcs⟩ := Attempt.bind_eq_ok.1 hcs
    cases hcs
    intro c hc
    rcases List.mem_append.1 hc with hc | hc
    · exact hn _ List.mem_cons_self left hleft c hc
    · exact hn _ (List.mem_cons_of_mem _ List.mem_cons_self) right hright c hc
  · exact h.treatAll (hn _ List.mem_cons_self) hcs
  · split at hcs
    · exact h.treatAll (hn _ List.mem_cons_self) hcs
    · cases hcs
  · split at hcs
    · exact h.treatAll (hn _ List.mem_cons_self) hcs
    · cases hcs
  · cases hcs

end Asking

theorem Query.branches_node_map {β : Type} (q : Query) (f : Query → β) :
    (q.node.map f).branches = q.branches.map f := by
  cases q <;> rfl

theorem Query.related_node_map {β γ : Type} {P : β → γ → Prop} (q : Query) {f : Query → β}
    {g : Query → γ} (h : ∀ p ∈ q.branches, P (f p) (g p)) : (q.node.map f).Related P (q.node.map g) := by
  cases q with
  | root root              => exact .root root
  | step field isArray p   => exact .step field isArray (h p List.mem_cons_self)
  | filter predicate p     => exact .filter predicate (h p List.mem_cons_self)
  | union left right       =>
      exact .union (h left List.mem_cons_self) (h right (List.mem_cons_of_mem _ List.mem_cons_self))
  | flatten p              => exact .flatten (h p List.mem_cons_self)

/-- **What is inherited holds of every occurrence.** -/
theorem Context.forall_mem_occurrences {c : Context} {P : Candidate → Prop} (h : c.toAsking.Inherits P)
    {q : Query} {cs : List Candidate} (hcs : c.occurrences q = .ok cs) : ∀ x ∈ cs, P x := by
  induction q using Query.branch_induction generalizing cs with
  | h q ih =>
  rw [occurrences_eq, occurrencesAt] at hcs
  split at hcs
  · cases hcs
  · refine h.occurrencesBy (fun os hos cs hcs => ?_) hcs
    rw [Query.branches_node_map] at hos
    obtain ⟨p, hp, rfl⟩ := List.mem_map.1 hos
    exact ih p hp hcs

/-- Descriptors are made of outfits that were read, and of nothing else. -/
theorem Asking.inherits_faithful (a : Asking) : a.Inherits (Candidate.FaithfulTo a.scene.world) where
  entity _ := trivial
  found h _ _ hd := a.faithful_of_found h hd

theorem Context.consistent_of_occurrences (c : Context) {q : Query} {cs : List Candidate}
    (h : c.occurrences q = .ok cs) : CandidateSet.Consistent cs :=
  CandidateSet.consistent_of_faithful (forall_mem_occurrences c.inherits_faithful h)

/-! ### Doubles -/

namespace Asking

variable (a : Asking) {t : Treatment} {s : CandidateSet} {c : Candidate} {cs ds : List Candidate}

theorem treat_eq (t : Treatment) (s : CandidateSet) :
    a.treat t s = (a.treatAll t s.toList).map .ofList := by
  rw [treat, treatAll]
  cases s.toList.mapM (a.found t) <;> rfl

theorem treatAll_append (t : Treatment) (cs ds : List Candidate) :
    a.treatAll t (cs ++ ds) = (do return (← a.treatAll t cs) ++ (← a.treatAll t ds)) := by
  simp only [treatAll, List.mapM_append]
  cases cs.mapM (a.found t) with
  | error e => rfl
  | ok xs   =>
      cases ds.mapM (a.found t) with
      | error e => rfl
      | ok ys   => exact congrArg Except.ok List.flatten_append

theorem treatAll_cons (t : Treatment) (c : Candidate) (cs : List Candidate) :
    a.treatAll t (c :: cs) = (do return (← a.found t c) ++ (← a.treatAll t cs)) := by
  rw [treatAll, List.mapM_cons, treatAll]
  cases a.found t c with
  | error e => rfl
  | ok x    => cases cs.mapM (a.found t) <;> rfl

/-- What a treatment finds in a candidate is among all that it finds, and if it fails there it fails. -/
theorem found_of_treatAll {found : List Candidate} (h : a.treatAll t cs = .ok found) (hc : c ∈ cs) :
    ∃ x, a.found t c = .ok x ∧ x ⊆ found := by
  obtain ⟨founds, hfounds, rfl⟩ := Attempt.map_eq_ok.1 h
  obtain ⟨x, hx, hfound⟩ := Attempt.exists_of_mapM_eq_ok hfounds hc
  exact ⟨x, hfound, fun d hd => List.mem_flatten.2 ⟨x, hx, hd⟩⟩

/-- A double may be left out. -/
theorem treatAll_double (hc : c ∈ cs) :
    (a.treatAll t (cs ++ c :: ds)).map CandidateSet.ofList =
      (a.treatAll t (cs ++ ds)).map CandidateSet.ofList := by
  rw [treatAll_append, treatAll_append, treatAll_cons]
  cases hcs : a.treatAll t cs with
  | error e  => rfl
  | ok found =>
      obtain ⟨x, hx, hsubset⟩ := a.found_of_treatAll hcs hc
      rw [hx]
      cases a.treatAll t ds with
      | error e => rfl
      | ok rest =>
          -- All that the double adds is in the set already.
          have hdouble : (CandidateSet.ofList found).extend x = .ofList found :=
            CandidateSet.extend_of_contains fun d hd =>
              CandidateSet.contains_extend_of_mem (hsubset hd)
          show Except.ok (CandidateSet.ofList (found ++ (x ++ rest))) = .ok (.ofList (found ++ rest))
          rw [CandidateSet.ofList, CandidateSet.ofList, CandidateSet.extend_append,
            CandidateSet.extend_append, CandidateSet.extend_append]
          exact congrArg (fun s => Except.ok (CandidateSet.extend s rest)) hdouble

theorem treat_extend (h : CandidateSet.Consistent (s.toList ++ cs)) :
    a.treat t (s.extend cs) = (a.treatAll t (s.toList ++ cs)).map .ofList := by
  induction cs generalizing s with
  | nil          => rw [CandidateSet.extend_nil, List.append_nil, treat_eq]
  | cons c cs ih =>
      rw [CandidateSet.extend_cons, ih h.insert]
      by_cases hc : s.contains c
      · have hmem := h.mem_of_contains List.mem_cons_self hc
        rw [CandidateSet.insert_of_contains hc, a.treatAll_double hmem]
      · rw [CandidateSet.toList_insert_of_not_contains hc, List.append_assoc, List.singleton_append]

/-- **Doubles left out of candidates make no difference to what a treatment makes of them**, nor to the
error in which it ends. -/
theorem treat_ofList (h : CandidateSet.Consistent cs) :
    a.treat t (.ofList cs) = (a.treatAll t cs).map .ofList :=
  a.treat_extend (s := ∅) h

theorem rootSet_eq (root : Root) :
    a.rootSet root = ((a.rootIds root).map (·.map Candidate.entity)).map .ofList := by
  cases root with
  | actor | location | none => rfl
  | entities component      =>
      rw [rootSet, rootIds]
      cases a.scene.world.holders component <;> rfl

end Asking

/-! ### Resolutions -/

/-- Equal results, unless the first is an error for a bound. -/
abbrev SameUpToBounds {α : Type} : Except QueryError α → Except QueryError α → Prop :=
  Attempt.SameUnless QueryError.IsBound fun _ => True

/-- A part of a run comes to the set of these occurrences, unless it hits a bound. -/
def Resolving.Collects (x : Resolving CandidateSet) (os : Except QueryError (List Candidate)) : Prop :=
  ∃ r, x.ComesTo r ∧ SameUpToBounds r (os.map .ofList)

namespace Resolving.Collects

variable {x y : Resolving CandidateSet} {os os' : Except QueryError (List Candidate)}

theorem of_comesTo (h : x.ComesTo (os.map .ofList)) : x.Collects os :=
  ⟨_, h, .refl fun _ _ => trivial⟩

theorem treat (hx : x.Collects os) (hos : ∀ cs, os = .ok cs → CandidateSet.Consistent cs) {a : Asking}
    {t : Treatment} {f : CandidateSet → Resolving CandidateSet} (hf : ∀ s, (f s).ComesTo (a.treat t s)) :
    Collects (x >>= f) (os >>= a.treatAll t) := by
  obtain ⟨r, hr, hsame⟩ := hx
  have hsets : (os >>= a.treatAll t).map CandidateSet.ofList = os.map .ofList >>= a.treat t := by
    cases os with
    | error e => rfl
    | ok cs   => exact (a.treat_ofList (hos cs rfl)).symm
  refine ⟨r >>= a.treat t, hr.bind hf, ?_⟩
  rw [hsets]
  exact hsame.bind fun s => .refl fun _ _ => trivial

theorem union (hx : x.Collects os) (hy : y.Collects os') {a : Asking} :
    Collects (do let left ← x; a.united left (← y)) (do let cs ← os; return cs ++ (← os')) := by
  obtain ⟨r, hr, hsame⟩ := hx
  obtain ⟨r', hr', hsame'⟩ := hy
  have hsets : (do let cs ← os; return cs ++ (← os')).map CandidateSet.ofList =
      (do let s ← os.map CandidateSet.ofList; return s.union (← os'.map CandidateSet.ofList)) := by
    cases os with
    | error e => rfl
    | ok cs   =>
        cases os' with
        | error e => rfl
        | ok cs'  => exact congrArg Except.ok (CandidateSet.ofList_union_ofList cs cs').symm
  refine ⟨do let s ← r; return s.union (← r'),
    hr.bind fun left => hr'.bind fun right => a.united_comesTo left right, ?_⟩
  rw [hsets]
  exact hsame.bind fun s => hsame'.bind fun _ => .ok _

end Resolving.Collects

namespace Context

variable (c : Context)

theorem within_same {r s : Except QueryError CandidateSet} (h : SameUpToBounds r s) (d : Nat) :
    SameUpToBounds (c.within d r) s := by
  rcases Nat.lt_or_ge d c.settings.maxDepth with hd | hd
  case inr =>
    rw [within, if_pos hd]
    exact .inl ⟨_, rfl, .inl ⟨_, rfl⟩⟩
  rcases h with ⟨e, rfl, he⟩ | ⟨-, rfl⟩
  · exact .inl ⟨e, c.within_error_of_lt hd e, he⟩
  · cases s with
    | error e =>
        rw [c.within_error_of_lt hd]
        exact .error trivial
    | ok s    =>
        rcases Nat.lt_or_ge c.settings.maxCandidates s.size with hs | hs
        · exact .inl ⟨.tooManyCandidates s.size c.settings.maxCandidates,
            (if_neg (Nat.not_le.2 hd)).trans (if_pos hs), .inr ⟨_, _, rfl⟩⟩
        · rw [c.within_eq_ok.2 ⟨hd, rfl, hs⟩]
          exact .ok s

/-- A branch comes to the set of its occurrences, and of these no two have one key and differ. -/
def Gathers (x : Resolving CandidateSet) (os : Except QueryError (List Candidate)) : Prop :=
  x.Collects os ∧ ∀ cs, os = .ok cs → CandidateSet.Consistent cs

variable {c} {n : Query.Node (Resolving CandidateSet)}
  {m : Query.Node (Except QueryError (List Candidate))}

/-- What a resolver makes of a node comes to the set of the occurrences there. -/
theorem collects_resolve (r : Resolver) (h : n.Related Gathers m) :
    (r.resolve c.toAsking n).Collects (c.occurrencesBy r m) := by
  have hrefused : ∀ kind : Query.Kind,
      Resolving.Collects (throw (.noResolver kind)) (.error (.noResolver kind)) :=
    fun _ => .of_comesTo (.throw _)
  cases h with
  | root root =>
      cases r with
      | source => exact .of_comesTo (c.rootSet_eq root ▸ c.fromRoot_comesTo root)
      | step | filter | union | arrayIteration | clothing | slot => exact hrefused _
  | step field isArray h =>
      cases r with
      | step     => exact h.1.treat h.2 fun parent => c.alongField_comesTo field isArray parent
      | clothing =>
          simp only [Resolver.resolve, Asking.occurrencesBy]
          cases View.ofField? field with
          | none      => exact hrefused _
          | some view => exact h.1.treat h.2 fun parent => c.alongView_comesTo view isArray parent
      | slot     =>
          simp only [Resolver.resolve, Asking.occurrencesBy]
          cases BodySlot.ofName? field with
          | none          => exact hrefused _
          | some bodySlot => exact h.1.treat h.2 fun parent => c.alongSlot_comesTo bodySlot parent
      | source | filter | union | arrayIteration => exact hrefused _
  | filter predicate h =>
      cases r with
      | filter => exact h.1.treat h.2 fun parent => c.filtered_comesTo predicate parent
      | source | step | union | arrayIteration | clothing | slot => exact hrefused _
  | union hl hr =>
      cases r with
      | union => exact hl.1.union hr.1
      | source | step | filter | arrayIteration | clothing | slot => exact hrefused _
  | flatten h =>
      cases r with
      | arrayIteration => exact h.1.treat h.2 fun parent => c.flattened_comesTo parent
      | source | step | filter | union | clothing | slot => exact hrefused _

theorem collects_dispatch (d : Nat) (h : n.Related Gathers m) :
    (c.dispatch d n).Collects (c.occurrencesAt m) := by
  rcases Nat.lt_or_ge d c.settings.maxDepth with hd | hd
  case inr => exact ⟨_, ⟨[], c.dispatch_too_deep n hd⟩, .inl ⟨_, rfl, .inl ⟨_, rfl⟩⟩⟩
  unfold occurrencesAt
  rw [h.resolverFor?_eq, h.kind_eq]
  cases hr : c.router.resolverFor? n with
  | none   => exact .of_comesTo ⟨[], c.dispatch_unrouted hd hr⟩
  | some r =>
      obtain ⟨made, hmade, hsame⟩ := collects_resolve (c := c) r h
      exact ⟨_, c.dispatch_comesTo hr hmade d, c.within_same hsame d⟩

/-- **A query comes to the set of its occurrences, unless it hits a bound.** -/
theorem resolve_collects (c : Context) (q : Query) (d : Nat) :
    (c.resolve q d).Collects (c.occurrences q) := by
  induction q using Query.branch_induction generalizing d with
  | h q ih =>
  rw [c.resolve_eq, c.occurrences_eq]
  exact collects_dispatch d
    (q.related_node_map fun p hp => ⟨ih p hp (d + 1), fun _ => c.consistent_of_occurrences⟩)

variable {q : Query} {d : Nat} {run : Run} {s : CandidateSet}

theorem exists_occurrences (h : (c.resolve q d).result run = .ok s) :
    ∃ cs, c.occurrences q = .ok cs ∧ s = .ofList cs := by
  obtain ⟨r, hr, hsame⟩ := c.resolve_collects q d
  obtain rfl : r = .ok s := (hr.result_eq run).symm.trans h
  rcases hsame with ⟨_, ⟨⟩, -⟩ | ⟨-, heq⟩
  obtain ⟨cs, hcs, hs⟩ := Attempt.map_eq_ok.1 heq
  exact ⟨cs, hcs, hs.symm⟩

/-- **What is inherited holds of all candidates of a query**, at each of its nodes and whichever resolvers
the router knows. -/
theorem forall_mem_of_resolve {P : Candidate → Prop} (hP : c.toAsking.Inherits P)
    (h : (c.resolve q d).result run = .ok s) : ∀ x ∈ s.toList, P x := by
  obtain ⟨cs, hcs, rfl⟩ := exists_occurrences h
  exact fun x hx => forall_mem_occurrences hP hcs x (CandidateSet.mem_of_mem_ofList hx)

/-! ### Snapshots -/

/-- **Descriptors are snapshots, and nothing is lost with those that are left out.**  Whichever resolvers
the router knows:

* a descriptor in the set of a node, of whichever query, carries the outfit that its owner has in the
  world;
* so descriptors that are the same, though their outfits are not compared, carry the same outfit, at
  whichever nodes they are;
* every query comes to the set of its occurrences, with all doubles kept up to there, or ends in the error
  in which they do, unless it hits a bound.  So no step to a slot and no flattening finds more or less, or
  anything else, for the doubles that were left out in unions and steps before it. -/
theorem descriptors_are_snapshots (c : Context) :
    (∀ (q : Query) (d : Nat) (run : Run) (s : CandidateSet), (c.resolve q d).result run = .ok s →
      ∀ x, .descriptor x ∈ s.toList → c.scene.world.outfit x.owner = .ok x.outfit) ∧
    (∀ (q q' : Query) (d d' : Nat) (run run' : Run) (s s' : CandidateSet),
      (c.resolve q d).result run = .ok s → (c.resolve q' d').result run' = .ok s' →
        ∀ x y, .descriptor x ∈ s.toList → .descriptor y ∈ s'.toList →
          Candidate.same (.descriptor x) (.descriptor y) → x.outfit = y.outfit) ∧
    ∀ (q : Query) (d : Nat) (run : Run),
      (∃ e, (c.resolve q d).result run = .error e ∧ e.IsBound) ∨
        (c.resolve q d).result run = (c.occurrences q).map .ofList := by
  have hfaithful : ∀ q d run s, (c.resolve q d).result run = .ok s →
      ∀ x, .descriptor x ∈ s.toList → c.scene.world.outfit x.owner = .ok x.outfit :=
    fun _ _ _ _ h _ hx => forall_mem_of_resolve c.inherits_faithful h _ hx
  refine ⟨hfaithful, ?_, fun q d run => ?_⟩
  · intro q q' d d' run run' s s' h h' x y hx hy hsame
    obtain ⟨howner, -⟩ : x.owner = y.owner ∧ x.view = y.view := of_decide_eq_true hsame
    have hxoutfit := hfaithful q d run s h x hx
    rw [howner] at hxoutfit
    exact Except.ok.inj (hxoutfit.symm.trans (hfaithful q' d' run' s' h' y hy))
  · obtain ⟨r, hr, hsame⟩ := c.resolve_collects q d
    rw [hr.result_eq run]
    rcases hsame with hbound | ⟨-, heq⟩
    · exact .inl hbound
    · exact .inr heq.symm

/-- The hero wears a cloak, and goes by an alias that is his own name. -/
def aliasedHero : Store :=
  let worn := Json.object [("torso_upper", .object [("outer", .str "cloak")])]
  ((∅ : Store).insert "hero" equipmentComponent (.object [("equipped", worn)])).insert
    "hero" "alias" (.str "hero")

/-- The hero's outfit is come upon twice, and so is the cloak; the set has one descriptor, and one cloak. -/
theorem cloak_come_upon_twice :
    let c : Context := { actor := "hero", scene := { world := aliasedHero.world } }
    let topmost : Query → Query := .step View.topmost.field false
    let aliased : Query := topmost (.step "alias" false (.root .actor))
    let outfits : Query := .union (topmost (.root .actor)) aliased
    let torso : Query := .step BodySlot.torsoUpper.name false outfits
    let result := fun q d => (c.resolve q d).result { scores := default }
    ∃ x y : Descriptor,
      result outfits 0 = .ok (.ofList [.descriptor x]) ∧ result aliased 1 = .ok (.ofList [.descriptor y]) ∧
      aliasedHero.world.outfit "hero" = .ok x.outfit ∧ x.outfit = y.outfit ∧
      c.occurrences outfits = .ok [.descriptor x, .descriptor y] ∧
      c.occurrences torso = .ok [.entity "cloak", .entity "cloak"] ∧
      result torso 0 = .ok (.ofEntities ["cloak"]) ∧
      result torso 0 = (c.occurrences torso).map .ofList := by
  intro c topmost aliased outfits torso result
  obtain ⟨hfaithful, hsame, hoccurrences⟩ := descriptors_are_snapshots c
  obtain ⟨outfit, houtfit⟩ : ∃ outfit, aliasedHero.world.outfit "hero" = .ok outfit := ⟨_, rfl⟩
  let x : Descriptor := ⟨"hero", .topmost, outfit⟩
  have houtfits : result outfits 0 = .ok (.ofList [.descriptor x]) := by
    cases houtfit
    rfl
  have haliased : result aliased 1 = .ok (.ofList [.descriptor x]) := by
    cases houtfit
    rfl
  have htwice : c.occurrences outfits = .ok [.descriptor x, .descriptor x] := by
    cases houtfit
    rfl
  have hcloaks : c.occurrences torso = .ok [.entity "cloak", .entity "cloak"] := by
    decide +kernel
  have htorso : result torso 0 = .ok (.ofEntities ["cloak"]) := by
    decide +kernel
  have hunbounded : ¬ ∃ e, result torso 0 = .error e ∧ e.IsBound := by
    rintro ⟨e, he, -⟩
    cases htorso.symm.trans he
  have hmem : Candidate.descriptor x ∈ (CandidateSet.ofList [.descriptor x]).toList := List.mem_cons_self
  have hsamex : (Candidate.descriptor x).same (.descriptor x) := by simp [Candidate.same]
  exact ⟨x, x, houtfits, haliased, hfaithful outfits 0 _ _ houtfits x hmem,
    hsame outfits aliased 0 1 _ _ _ _ houtfits haliased x x hmem hmem hsamex, htwice, hcloaks, htorso,
    (hoccurrences torso 0 { scores := default }).resolve_left hunbounded⟩

end Context

end EntityQuery
