import EntityQuery.Attire.ScoreTable
import Mathlib.Data.List.DropRight
import Mathlib.Data.List.Nodup
import Mathlib.Data.List.Perm.Subperm
import Mathlib.Data.List.ProdSigma

/-!
# What a score table counts

A score table is asked for scores and cleared, in any order, and it keeps count of what it could answer,
what it could not, and how often it was full.  The counts are those of the time since it was last cleared,
and they add up (`ScoreTable.Balanced`): what is remembered now, and what was forgotten whenever the table
was full, was each asked for once in vain.  The size that it keeps count of is that of what it remembers.

* `ScoreTable.Balanced.use`: each use keeps the books balanced.
* `ScoreTable.books_balance`: so they are after any number of uses, whatever the capacity, and all answers
  on the way are the scores of the keys.
-/

namespace EntityQuery.Attire

/-- All keys there are. -/
def ScoreKey.all : List ScoreKey :=
  Prominence.all.product Layer.all

theorem ScoreKey.mem_all (key : ScoreKey) : key ∈ all :=
  List.mem_product.2 ⟨Prominence.mem_all key.1, Layer.mem_all key.2⟩

namespace ScoreTable

/-! ### Uses -/

/-- What may be done with a table. -/
inductive Use where
  | ask (key : ScoreKey)
  | clear
deriving DecidableEq

/-- The key that is asked for. -/
def Use.key? : Use → Option ScoreKey
  | ask key => some key
  | clear   => none

/-- The table after a use. -/
def use (t : ScoreTable) : Use → ScoreTable
  | .ask key => (t.ask key).2
  | .clear   => t.clear

/-- The table after uses, one after the other. -/
def after (t : ScoreTable) (uses : List Use) : ScoreTable :=
  uses.foldl use t

/-- What a table answers in the course of uses. -/
def answers (t : ScoreTable) : List Use → List Nat
  | []               => []
  | .ask key :: uses => (t.ask key).1 :: (t.ask key).2.answers uses
  | .clear :: uses   => t.clear.answers uses

/-- The keys that were asked for since the table was last cleared. -/
def askedSinceClear (uses : List Use) : List ScoreKey :=
  (uses.rtakeWhile fun u => u.key?.isSome).filterMap Use.key?

/-- Whether a table has the score of a key. -/
def remembers (t : ScoreTable) (key : ScoreKey) : Bool :=
  (t.find? key).isSome

variable {t : ScoreTable} {key : ScoreKey} {asked : List ScoreKey}

/-! ### What is remembered -/

theorem remembers_iff : t.remembers key ↔ key ∈ t.scores.map (·.1) := by
  simp [remembers, find?]

section Remember

variable (t : ScoreTable) (key : ScoreKey)

theorem remember_eq :
    t.remember key =
      if t.isFull then { t with misses := t.misses + 1 }.evict.insert key
      else { t with misses := t.misses + 1 }.insert key :=
  apply_ite (insert · key) _ _ _

@[simp] theorem room_remember : (t.remember key).room = t.room := by
  rw [remember_eq]
  split <;> rfl

@[simp] theorem capacity_remember : (t.remember key).capacity = t.capacity := by
  rw [remember_eq]
  split <;> rfl

@[simp] theorem hits_remember : (t.remember key).hits = t.hits := by
  rw [remember_eq]
  split <;> rfl

@[simp] theorem misses_remember : (t.remember key).misses = t.misses + 1 := by
  rw [remember_eq]
  split <;> rfl

@[simp] theorem evictions_remember :
    (t.remember key).evictions = if t.isFull then t.evictions + 1 else t.evictions := by
  rw [remember_eq]
  split <;> rfl

@[simp] theorem scores_remember :
    (t.remember key).scores = (key, key.1.score key.2) :: if t.isFull then [] else t.scores := by
  rw [remember_eq]
  split <;> rfl

@[simp] theorem size_remember :
    (t.remember key).size = (if t.isFull then 0 else t.size) + 1 := by
  rw [remember_eq]
  split <;> rfl

/-- The size that is kept count of is brought up to date by what is remembered. -/
@[simp] theorem currentSize_remember : (t.remember key).currentSize = (t.remember key).size := by
  rw [remember_eq]
  split <;> rfl

end Remember

/-- A key that is looked for in vain is not remembered. -/
theorem not_mem_of_find?_eq_none (h : t.find? key = none) : key ∉ t.scores.map (·.1) := by
  rw [← remembers_iff, remembers, h]
  exact Bool.false_ne_true

/-! ### The books -/

/-- The books of a table that was asked for these keys since it was last cleared. -/
structure Balanced (t : ScoreTable) (asked : List ScoreKey) : Prop where
  /-- No key is remembered twice. -/
  once : (t.scores.map (·.1)).Nodup
  /-- The size that is kept count of is that of what is remembered. -/
  currentSize : t.currentSize = t.size
  capacity : t.capacity = t.room
  roomy : 0 < t.room
  size_le : t.size ≤ t.room
  /-- Every question was answered from memory or in vain. -/
  asked : t.hits + t.misses = asked.length
  /-- What was asked for in vain is remembered, or was forgotten with a table that was full. -/
  misses : t.misses = t.evictions * t.room + t.size
  /-- A table with room for all keys is never too full. -/
  spacious : ScoreKey.all.length ≤ t.room → t.evictions = 0

/-- Where no key is remembered twice, what is remembered is counted by keys. -/
theorem size_eq_countP (h : (t.scores.map (·.1)).Nodup) : t.size = ScoreKey.all.countP t.remembers := by
  have hall : ScoreKey.all.Nodup := by decide
  have hperm : (t.scores.map (·.1)).Perm (ScoreKey.all.filter t.remembers) := by
    refine (List.perm_ext_iff_of_nodup h (hall.filter _)).2 fun key => ?_
    rw [List.mem_filter, remembers_iff]
    exact ⟨fun hkey => ⟨key.mem_all, hkey⟩, And.right⟩
  calc t.size
    _ = (t.scores.map (·.1)).length               := (List.length_map _).symm
    _ = (ScoreKey.all.filter t.remembers).length  := hperm.length_eq
    _ = ScoreKey.all.countP t.remembers           := List.countP_eq_length_filter.symm

/-- As long as a key is missing, not all keys are remembered. -/
theorem size_lt_of_missing (h : (t.scores.map (·.1)).Nodup) (hkey : t.find? key = none) :
    t.size < ScoreKey.all.length := by
  have hnodup : (key :: t.scores.map (·.1)).Nodup :=
    List.nodup_cons.2 ⟨not_mem_of_find?_eq_none hkey, h⟩
  have hlength := (List.subperm_of_subset hnodup fun key _ => key.mem_all).length_le
  rwa [List.length_cons, List.length_map] at hlength

namespace Balanced

theorem ofCapacity (capacity : Nat) : (ofCapacity capacity).Balanced [] where
  once := List.nodup_nil
  currentSize := rfl
  capacity := rfl
  roomy := Nat.le_max_right capacity 1
  size_le := Nat.zero_le _
  asked := rfl
  misses := (Nat.zero_mul _).symm
  spacious _ := rfl

/-- A cleared table has the books of a new one. -/
theorem clear (h : t.Balanced asked) : t.clear.Balanced [] where
  once := List.nodup_nil
  currentSize := rfl
  capacity := rfl
  roomy := h.roomy
  size_le := Nat.zero_le _
  asked := rfl
  misses := (Nat.zero_mul _).symm
  spacious _ := rfl

/-- A score that the table has is one more answer. -/
theorem hit (h : t.Balanced asked) (key : ScoreKey) :
    { t with hits := t.hits + 1 }.Balanced (asked ++ [key]) where
  once := h.once
  currentSize := h.currentSize
  capacity := h.capacity
  roomy := h.roomy
  size_le := h.size_le
  asked := by
    have hasked := h.asked
    simp only [List.length_append, List.length_singleton]
    omega
  misses := h.misses
  spacious := h.spacious

/-- A score that the table does not have is computed and remembered, in a table that was emptied if it was
full. -/
theorem miss (h : t.Balanced asked) (hkey : t.find? key = none) :
    (t.remember key).Balanced (asked ++ [key]) where
  once := by
    rw [scores_remember]
    split
    · exact List.nodup_singleton key
    · exact List.nodup_cons.2 ⟨not_mem_of_find?_eq_none hkey, h.once⟩
  currentSize := currentSize_remember t key
  capacity := by
    rw [capacity_remember, room_remember]
    exact h.capacity
  roomy := by
    rw [room_remember]
    exact h.roomy
  size_le := by
    rw [size_remember, room_remember]
    split
    · exact h.roomy
    · rename_i hroom
      exact Nat.lt_of_not_le fun hle => hroom (decide_eq_true hle)
  asked := by
    have hasked := h.asked
    rw [hits_remember, misses_remember, List.length_append, List.length_singleton]
    omega
  misses := by
    rw [misses_remember, evictions_remember, room_remember, size_remember, h.misses]
    split
    · -- A full table holds just what it can, and forgets that much.
      rename_i hfull
      have hsize : t.size = t.room := Nat.le_antisymm h.size_le (of_decide_eq_true hfull)
      rw [hsize, Nat.succ_mul, Nat.zero_add]
    · exact Nat.add_assoc _ _ _
  spacious hspacious := by
    rw [room_remember] at hspacious
    have hroom : ¬ t.isFull := fun hfull =>
      Nat.not_lt.2 (Nat.le_trans hspacious (of_decide_eq_true hfull)) (size_lt_of_missing h.once hkey)
    rw [evictions_remember, if_neg hroom]
    exact h.spacious hspacious

theorem ask (h : t.Balanced asked) (key : ScoreKey) : (t.ask key).2.Balanced (asked ++ [key]) := by
  unfold ScoreTable.ask
  split
  · exact h.hit key
  · rename_i hkey
    exact h.miss hkey

end Balanced

/-! ### Any number of uses -/

theorem Balanced.use (h : t.Balanced asked) (u : Use) :
    (t.use u).Balanced (u.key?.elim [] fun key => asked ++ [key]) := by
  cases u with
  | ask key => exact h.ask key
  | clear   => exact h.clear

theorem room_use (t : ScoreTable) (u : Use) : (t.use u).room = t.room := by
  cases u with
  | clear   => rfl
  | ask key =>
      rw [use, ask]
      split
      · rfl
      · exact room_remember t key

theorem askedSinceClear_concat (uses : List Use) (u : Use) :
    askedSinceClear (uses ++ [u]) = u.key?.elim [] fun key => askedSinceClear uses ++ [key] := by
  cases u with
  | clear   => simp [askedSinceClear, Use.key?]
  | ask key => simp [askedSinceClear, Use.key?]

/-- The books of a new table are balanced whatever it is used for, and it keeps its room. -/
theorem balanced_after (capacity : Nat) (uses : List Use) :
    ((ofCapacity capacity).after uses).Balanced (askedSinceClear uses) ∧
      ((ofCapacity capacity).after uses).room = max capacity 1 := by
  induction uses using List.reverseRecOn with
  | nil                     => exact ⟨.ofCapacity capacity, rfl⟩
  | append_singleton uses u ih =>
      obtain ⟨hbalanced, hroom⟩ := ih
      rw [after, List.foldl_append, askedSinceClear_concat]
      exact ⟨hbalanced.use u, (room_use _ u).trans hroom⟩

/-- Whatever was asked before, each question is answered with the score of its key. -/
theorem answers_eq (t : ScoreTable) (uses : List Use) :
    t.answers uses = (uses.filterMap Use.key?).map fun key => key.1.score key.2 := by
  induction uses generalizing t with
  | nil            => rfl
  | cons u uses ih =>
      cases u with
      | clear   => exact ih t.clear
      | ask key => simp [answers, ih, Use.key?]

/-- **The books balance.**  For every capacity, and for every number of questions and clearances of a new
table, in any order:

* each question was answered with the weights of the class and the layer of its key, and that is what the
  table remembers of a key;
* the current size, as it is kept count of, is the number of scores that are remembered and of keys that the
  table has a score of, and it is at most the capacity, which is the one that the table was made with, or one
  if that was none;
* what was answered from memory and what was not are together the questions since it was last cleared;
* what was not is what was forgotten with full tables, and what is remembered;
* with room for all sixteen keys, the table was never emptied for being full, and at most sixteen questions
  were not answered from memory. -/
theorem books_balance (capacity : Nat) (uses : List Use) :
    let t := (ofCapacity capacity).after uses
    let u := t.usage
    (ofCapacity capacity).answers uses =
      (uses.filterMap Use.key?).map (fun key => key.1.weight + key.2.weight) ∧
    (∀ key score, (key, score) ∈ t.scores → score = key.1.weight + key.2.weight) ∧
    u.currentSize = t.scores.length ∧ u.currentSize = ScoreKey.all.countP t.remembers ∧
    u.currentSize ≤ u.capacity ∧ u.capacity = max capacity 1 ∧
    u.hits + u.misses = (askedSinceClear uses).length ∧
    u.misses = u.evictions * u.capacity + u.currentSize ∧
    (16 ≤ u.capacity → u.evictions = 0 ∧ u.misses ≤ 16) := by
  intro t u
  obtain ⟨hbalanced, hroom⟩ := balanced_after capacity uses
  have hcurrent : u.currentSize = t.size := hbalanced.currentSize
  have hcapacity : u.capacity = t.room := hbalanced.capacity
  have hcount : t.size = ScoreKey.all.countP t.remembers := size_eq_countP hbalanced.once
  have hmisses : u.misses = u.evictions * u.capacity + u.currentSize := by
    rw [hcapacity, hcurrent]
    exact hbalanced.misses
  refine ⟨answers_eq _ uses, fun key score h => t.sound _ h, hcurrent, hcurrent.trans hcount, ?_,
    hcapacity.trans hroom, hbalanced.asked, hmisses, fun hspacious => ?_⟩
  · rw [hcurrent, hcapacity]
    exact hbalanced.size_le
  · have hevictions : u.evictions = 0 := hbalanced.spacious (hcapacity ▸ hspacious)
    have hkeys : u.currentSize ≤ ScoreKey.all.length :=
      (hcurrent.trans hcount).trans_le List.countP_le_length
    rw [hevictions, Nat.zero_mul, Nat.zero_add] at hmisses
    exact ⟨hevictions, hmisses.trans_le hkeys⟩

/-- Three scores do not go together into a table for two, which forgets the first two for the third; in a
table for sixteen they do. -/
theorem third_score_empties_table_for_two :
    let uses : List Use := [.ask (.base, .outer), .clear, .ask (.outer, .outer), .ask (.base, .base),
      .ask (.base, .base), .ask (.direct, .accessories)]
    let narrow := ((ofCapacity 2).after uses).usage
    let wide := ((ofCapacity 16).after uses).usage
    (ofCapacity 2).answers uses = [210, 110, 220, 220, 440] ∧
    narrow = { hits := 1, misses := 3, evictions := 1, currentSize := 1, capacity := 2 } ∧
    narrow.hits + narrow.misses = 4 ∧
    narrow.misses = narrow.evictions * narrow.capacity + narrow.currentSize ∧
    wide = { hits := 1, misses := 3, evictions := 0, currentSize := 3, capacity := 16 } ∧
    wide.evictions = 0 ∧ wide.misses ≤ 16 := by
  intro uses narrow wide
  obtain ⟨hanswers, -, -, -, -, -, hasked, hmisses, -⟩ := books_balance 2 uses
  obtain ⟨-, -, -, -, -, -, -, -, hspacious⟩ := books_balance 16 uses
  have hwide : wide = { hits := 1, misses := 3, evictions := 0, currentSize := 3, capacity := 16 } := rfl
  have hroom : 16 ≤ wide.capacity := by
    rw [hwide]
  exact ⟨hanswers, rfl, hasked, hmisses, hwide, hspacious hroom⟩

end ScoreTable

end EntityQuery.Attire
