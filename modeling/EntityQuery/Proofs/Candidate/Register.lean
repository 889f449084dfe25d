import EntityQuery.Candidate.Register
import EntityQuery.Proofs.Json.Sameness
import EntityQuery.Proofs.Resolution.Texts

/-!
# Candidate sets as registers

A set of candidates may be kept as a register (`Register`): the members in the order in which they came, and
once more to look them up by their hash.  A register is told apart from the set only by values that are
equal without being identical, `0.0` and `-0.0`, or not even equal to themselves, a NaN; there it is up to
the hash.

* `Candidate.EqualByKey.of_values`: without such values candidates are equal if their keys are.
* `Register.Mirrors.insert`: then a candidate is new to a register if it is new to the set, and its two lists
  stay in step.
* `CandidateSet.after_eq_ofList`, `Register.after_eq_ofList`: whatever the operations by which candidates are
  offered, all that counts is their order.
* `CandidateSet.toList_ofList_eq_eraseDupsBy`: of those that are equal the first is kept.

`CandidateSet.keeps_the_first_offered` puts these together.
-/

namespace EntityQuery

/-! ### Lists without later doubles -/

section EraseDupsBy

variable {α : Type}

theorem eraseDupsBy_loop (r : α → α → Bool) (xs kept : List α) :
    List.eraseDupsBy.loop r xs kept =
      xs.foldl (fun ys x => if ys.any (r x) then ys else ys ++ [x]) kept.reverse := by
  induction xs generalizing kept with
  | nil          => rfl
  | cons x xs ih =>
      rw [List.eraseDupsBy.loop, List.foldl_cons, List.any_reverse]
      cases kept.any (r x) with
      | true  => exact ih kept
      | false => exact (ih (x :: kept)).trans (by rw [List.reverse_cons]; rfl)

theorem eraseDupsBy_concat (r : α → α → Bool) (xs : List α) (x : α) :
    (xs ++ [x]).eraseDupsBy r =
      if (xs.eraseDupsBy r).any (r x) then xs.eraseDupsBy r else xs.eraseDupsBy r ++ [x] := by
  simp only [List.eraseDupsBy, eraseDupsBy_loop, List.foldl_append, List.foldl_cons, List.foldl_nil]

end EraseDupsBy

/-! ### Equality by key -/

namespace Candidate

variable {c d : Candidate} {cs ds : List Candidate}

/-- The candidates are equal if their keys are, and only then. -/
def EqualByKey (cs : List Candidate) : Prop :=
  ∀ c ∈ cs, ∀ d ∈ cs, c.same d ↔ c.key = d.key

theorem EqualByKey.subset (h : EqualByKey ds) (hsubset : cs ⊆ ds) : EqualByKey cs :=
  fun c hc d hd => h c (hsubset hc) d (hsubset hd)

/-- Candidates of one key are equal, unless there is a NaN in them. -/
theorem same_of_key_eq (h : c.key = d.key) (hvalue : ∀ v, c = value v → v.WithoutNaN) : c.same d := by
  cases c with
  | entity id    =>
      cases d <;> cases h
      exact decide_eq_true rfl
  | value v      =>
      cases d <;> cases h
      exact (hvalue v rfl).same_self
  | descriptor x =>
      cases d with
      | descriptor y          =>
          obtain ⟨howner, hview⟩ := Key.descriptor.inj h
          exact decide_eq_true ⟨howner, hview⟩
      | entity _ | value _    => cases h

theorem EqualByKey.of_values (hnan : ∀ v, .value v ∈ cs → v.WithoutNaN) (hzeros : OneZero cs) :
    EqualByKey cs := by
  refine fun c hc d hd => ⟨fun h => key_eq_of_same h ?_, fun h => same_of_key_eq h ?_⟩
  · rintro v w rfl rfl
    exact hzeros v w hc hd
  · rintro v rfl
    exact hnan v hc

theorem hashed_eq_of_key_eq (h : c.key = d.key) : c.hashed = d.hashed := by
  cases c with
  | entity _     =>
      cases d <;> cases h
      rfl
  | value _      =>
      cases d <;> cases h
      rfl
  | descriptor _ =>
      cases d with
      | descriptor _       => exact h
      | entity _ | value _ => cases h

end Candidate

/-! ### Operations -/

/-- What may be done to a set of candidates; the last two make a new one. -/
inductive CandidateSet.Operation where
  | insert (c : Candidate)
  | extend (cs : List Candidate)
  | ofEntities (ids : List EntityId)
  | ofList (cs : List Candidate)

namespace CandidateSet.Operation

/-- The candidates offered so far to the set that is there, after one more operation. -/
def offer (cs : List Candidate) : Operation → List Candidate
  | insert c       => cs ++ [c]
  | extend ds      => cs ++ ds
  | ofEntities ids => ids.map .entity
  | ofList ds      => ds

/-- The candidates that operations, one after the other, offer to the set that is there in the end. -/
def offered (ops : List Operation) : List Candidate :=
  ops.foldl offer []

theorem offered_concat (ops : List Operation) (op : Operation) :
    offered (ops ++ [op]) = op.offer (offered ops) :=
  List.foldl_append ..

/-- **All that counts is the order in which candidates are offered**, whatever the operations: if it is so for
one more operation, it is so for all of them. -/
theorem foldl_eq_foldl_offered {α : Type} {apply : α → Operation → α} {insert : α → Candidate → α}
    {empty : α} (h : ∀ cs op, apply (cs.foldl insert empty) op = (op.offer cs).foldl insert empty)
    (ops : List Operation) : ops.foldl apply empty = (offered ops).foldl insert empty := by
  induction ops using List.reverseRecOn with
  | nil                        => rfl
  | append_singleton ops op ih => rw [List.foldl_append, ih, List.foldl_cons, h, offered_concat, List.foldl_nil]

end CandidateSet.Operation

open CandidateSet (Operation)
open CandidateSet.Operation (offered)

namespace Register

variable (hash : Candidate.Key → UInt64)

/-- The register after an operation. -/
def apply (r : Register) : Operation → Register
  | .insert c       => (r.insert hash c).2
  | .extend cs      => r.extend hash cs
  | .ofEntities ids => ofList hash (ids.map .entity)
  | .ofList cs      => ofList hash cs

/-- The register after operations, one after the other, on an empty one. -/
def after (ops : List Operation) : Register :=
  ops.foldl (apply hash) ⟨[], []⟩

/-- The register has the members of the set: in their order, and once more to look them up. -/
structure Mirrors (r : Register) (s : CandidateSet) : Prop where
  items : r.items = s.toList
  seen : r.seen.Perm s.toList

end Register

namespace CandidateSet

/-- The set after an operation. -/
def apply (s : CandidateSet) : Operation → CandidateSet
  | .insert c       => (s.offer c).2
  | .extend cs      => s.extend cs
  | .ofEntities ids => ofEntities ids
  | .ofList cs      => ofList cs

/-- The set after operations, one after the other, on an empty one. -/
def after (ops : List Operation) : CandidateSet :=
  ops.foldl apply ∅

theorem apply_ofList (cs : List Candidate) (op : Operation) : (ofList cs).apply op = ofList (op.offer cs) := by
  cases op with
  | insert c                   => exact (extend_append ∅ cs [c]).symm
  | extend ds                  => exact (extend_append ∅ cs ds).symm
  | ofEntities ids | ofList ds => rfl

theorem after_eq_ofList (ops : List Operation) : after ops = ofList (offered ops) :=
  Operation.foldl_eq_foldl_offered apply_ofList ops

end CandidateSet

namespace Register

variable {hash : Candidate.Key → UInt64} {r : Register} {s : CandidateSet} {c : Candidate}
variable {cs : List Candidate}

theorem extend_append (r : Register) (cs ds : List Candidate) :
    r.extend hash (cs ++ ds) = (r.extend hash cs).extend hash ds :=
  List.foldl_append ..

theorem apply_ofList (cs : List Candidate) (op : Operation) :
    (ofList hash cs).apply hash op = ofList hash (op.offer cs) := by
  cases op with
  | insert c                   => exact (extend_append ⟨[], []⟩ cs [c]).symm
  | extend ds                  => exact (extend_append ⟨[], []⟩ cs ds).symm
  | ofEntities ids | ofList ds => rfl

theorem after_eq_ofList (ops : List Operation) : after hash ops = ofList hash (offered ops) :=
  Operation.foldl_eq_foldl_offered apply_ofList ops

/-! ### Registers and sets in step -/

theorem Mirrors.contains (h : r.Mirrors s) (hkeys : Candidate.EqualByKey (c :: s.toList)) :
    r.contains hash c = s.contains c := by
  rw [Bool.eq_iff_iff, Register.contains, List.any_eq_true, CandidateSet.contains_iff]
  refine exists_congr fun d => ?_
  rw [h.seen.mem_iff, decide_eq_true_eq]
  refine and_congr_right fun hd => ?_
  rw [hkeys c List.mem_cons_self d (List.mem_cons_of_mem c hd), eq_comm (a := d.key)]
  exact and_iff_right_of_imp fun hkey => congrArg hash (Candidate.hashed_eq_of_key_eq hkey)

/-- **A candidate is new to a register if it is new to the set, and the register stays in step.** -/
theorem Mirrors.insert (h : r.Mirrors s) (hkeys : Candidate.EqualByKey (c :: s.toList)) :
    (r.insert hash c).1 = (s.offer c).1 ∧ (r.insert hash c).2.Mirrors (s.insert c) := by
  have hcontains : r.contains hash c = s.contains c := h.contains hkeys
  rw [Register.insert, hcontains]
  by_cases hc : s.contains c
  · rw [if_pos hc, CandidateSet.insert_of_contains hc]
    exact ⟨by simp [CandidateSet.offer, hc], h⟩
  · rw [if_neg hc]
    refine ⟨by simp [CandidateSet.offer, hc], ?_, ?_⟩
    · rw [CandidateSet.toList_insert_of_not_contains hc, h.items]
    · rw [CandidateSet.toList_insert_of_not_contains hc]
      exact (h.seen.cons c).trans (List.perm_append_singleton c _).symm

theorem mirrors_ofList (hkeys : Candidate.EqualByKey cs) :
    (ofList hash cs).Mirrors (CandidateSet.ofList cs) := by
  induction cs using List.reverseRecOn with
  | nil                      => exact ⟨rfl, .nil⟩
  | append_singleton cs c ih =>
      rw [ofList, extend_append, CandidateSet.ofList, CandidateSet.extend_append]
      refine (Mirrors.insert (ih (hkeys.subset (List.subset_append_left ..))) (hkeys.subset ?_)).2
      refine List.cons_subset.2 ⟨List.mem_append_right _ List.mem_cons_self, fun d hd => ?_⟩
      exact List.mem_append_left _ (CandidateSet.mem_of_mem_ofList hd)

end Register

/-! ### The first of equal ones -/

namespace CandidateSet

variable {s : CandidateSet} {c : Candidate} {cs : List Candidate}

theorem contains_iff_same (hkeys : Candidate.EqualByKey (c :: s.toList)) :
    s.contains c ↔ ∃ d ∈ s.toList, c.same d := by
  rw [contains_iff]
  refine exists_congr fun d => and_congr_right fun hd => ?_
  rw [hkeys c List.mem_cons_self d (List.mem_cons_of_mem c hd), eq_comm]

theorem ofList_concat (cs : List Candidate) (c : Candidate) : ofList (cs ++ [c]) = (ofList cs).insert c :=
  extend_append ..

theorem equalByKey_cons_ofList (hkeys : Candidate.EqualByKey (c :: cs)) :
    Candidate.EqualByKey (c :: (ofList cs).toList) :=
  hkeys.subset (List.cons_subset_cons c fun _ => mem_of_mem_ofList)

/-- **Of candidates that are equal the first is kept**, and the rest of them is left out. -/
theorem toList_ofList_eq_eraseDupsBy (hkeys : Candidate.EqualByKey cs) :
    (ofList cs).toList = cs.eraseDupsBy Candidate.same := by
  induction cs using List.reverseRecOn with
  | nil                      => rfl
  | append_singleton cs c ih =>
      have hsubset : c :: cs ⊆ cs ++ [c] := List.cons_subset.2
        ⟨List.mem_append_right _ List.mem_cons_self, List.subset_append_left ..⟩
      have hcontains := contains_iff_same (equalByKey_cons_ofList (hkeys.subset hsubset))
      rw [ofList_concat, toList_insert, eraseDupsBy_concat,
        ← ih (hkeys.subset (List.subset_append_left ..))]
      simp only [hcontains, List.any_eq_true]

theorem pairwise_not_same (hkeys : Candidate.EqualByKey s.toList) :
    s.toList.Pairwise fun c d => ¬ c.same d :=
  (List.pairwise_map.1 s.distinct).imp_of_mem fun hc hd hne => (hkeys _ hc _ hd).not.2 hne

/-- The first candidate of a key is a member. -/
theorem find?_ofList (k : Candidate.Key) (cs : List Candidate) :
    (ofList cs).toList.find? (·.key = k) = cs.find? (·.key = k) := by
  induction cs using List.reverseRecOn with
  | nil                      => rfl
  | append_singleton cs c ih =>
      rw [ofList_concat, toList_insert, List.find?_append, ← ih]
      split
      · rename_i hcontains
        obtain ⟨d, hd, hkey⟩ := contains_iff.1 hcontains
        by_cases hc : c.key = k
        · have hfound : ((ofList cs).toList.find? (·.key = k)).isSome :=
            List.find?_isSome.2 ⟨d, hd, decide_eq_true (hkey.trans hc)⟩
          rw [Option.or_of_isSome hfound]
        · rw [List.find?_singleton, if_neg (by simpa using hc), Option.or_none]
      · rw [List.find?_append]

/-- **A set keeps the first of equal candidates that are offered**, however they are.  A register holds the
same in both its lists, and tells the same of a candidate: it is there if one that is equal to it is among
the members.  Of the descriptors of one owner and one view the first is the one that is kept, with its
outfit. -/
theorem keeps_the_first_offered (hash : Candidate.Key → UInt64) (ops : List Operation) (asked : Candidate)
    (hnan : ∀ v, .value v ∈ asked :: offered ops → v.WithoutNaN)
    (hzeros : Candidate.OneZero (asked :: offered ops)) :
    let cs := offered ops
    let s := after ops
    let r := Register.after hash ops
    (r.items = s.toList ∧ r.seen.Perm r.items) ∧
    s.toList.Pairwise (fun c d => ¬ c.same d) ∧
    s.toList = cs.eraseDupsBy Candidate.same ∧
    ((r.insert hash asked).1 = (s.offer asked).1 ∧
      ((s.offer asked).1 ↔ ¬ ∃ c ∈ s.toList, asked.same c)) ∧
    (r.contains hash asked = s.contains asked ∧ (s.contains asked ↔ ∃ c ∈ s.toList, asked.same c)) ∧
    (∀ x y, (Candidate.descriptor x).same (.descriptor y) ↔ x.owner = y.owner ∧ x.view = y.view) ∧
    ∀ owner view, s.toList.find? (·.key = .descriptor owner view) =
      cs.find? (·.key = .descriptor owner view) := by
  intro cs s r
  have hkeys : Candidate.EqualByKey (asked :: cs) := .of_values hnan hzeros
  have hoffered : Candidate.EqualByKey cs := hkeys.subset (List.subset_cons_self ..)
  have hs : s = ofList cs := after_eq_ofList ops
  have hasked : Candidate.EqualByKey (asked :: s.toList) := hs ▸ equalByKey_cons_ofList hkeys
  have hmirrors : r.Mirrors s := by
    rw [hs, show r = Register.ofList hash cs from Register.after_eq_ofList ops]
    exact Register.mirrors_ofList hoffered
  have hcontains := contains_iff_same hasked
  refine ⟨⟨hmirrors.items, hmirrors.items ▸ hmirrors.seen⟩, ?_, ?_, ⟨(hmirrors.insert hasked).1, ?_⟩,
    ⟨hmirrors.contains hasked, hcontains⟩, fun x y => decide_eq_true_iff, fun owner view => ?_⟩
  · exact pairwise_not_same (hasked.subset (List.subset_cons_self ..))
  · rw [hs, toList_ofList_eq_eraseDupsBy hoffered]
  · rw [offer, decide_eq_true_eq, hcontains]
  · rw [hs, find?_ofList]

/-- An outfit offered again when nothing is worn any more is the old one; `1` and `1.0` are two values. -/
theorem keeps_what_was_worn :
    let worn : Descriptor := ⟨"hero", .topmost, { items := .ofList [⟨"legs", .outer, "chaps"⟩] }⟩
    let bare : Descriptor := ⟨"hero", .topmost, {}⟩
    let one : Candidate := .value (.num (.int 1))
    let ops : List Operation := [.ofList [.entity "hero", .descriptor worn, one], .insert (.entity "hero"),
      .extend [.descriptor bare, .value (.num (.float 1.0))]]
    (∀ v, .value v ∈ one :: offered ops → v.WithoutNaN) ∧ Candidate.OneZero (one :: offered ops) ∧
    (after ops).toList = (offered ops).eraseDupsBy Candidate.same ∧
    (Register.after (fun _ => 0) ops).seen.Perm (Register.after (fun _ => 0) ops).items ∧
    (after ops).toList.find? (·.key = .descriptor "hero" .topmost) = some (.descriptor worn) ∧
    ¬ ((after ops).offer one).1 := by
  intro worn bare one ops
  have hvalues : ∀ v, .value v ∈ one :: offered ops → v = .num (.int 1) ∨ v = .num (.float 1.0) := by
    intro v hv
    simp [one, ops, offered, Operation.offer] at hv
    tauto
  have hnan : ∀ v, .value v ∈ one :: offered ops → v.WithoutNaN := by
    intro v hv
    obtain rfl | rfl := hvalues v hv
    · exact .num _ nofun
    · refine .num _ fun x hx => ?_
      cases hx
      decide +kernel
  have hzeros : Candidate.OneZero (one :: offered ops) := by
    intro v w hv hw h
    obtain rfl | rfl := hvalues v hv <;> obtain rfl | rfl := hvalues w hw <;> first | rfl | cases h
  obtain ⟨⟨-, hseen⟩, -, hlist, ⟨-, hnew⟩, -, -, hfirst⟩ :=
    keeps_the_first_offered (fun _ => 0) ops one hnan hzeros
  refine ⟨hnan, hzeros, hlist, hseen, (hfirst "hero" .topmost).trans (by decide), ?_⟩
  rw [hnew, not_not, hlist]
  exact ⟨one, by decide +kernel, rfl⟩

end CandidateSet

end EntityQuery
