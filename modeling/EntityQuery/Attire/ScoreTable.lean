import EntityQuery.Attire.Coverage

/-!
# The score table

Scores are remembered in a table of bounded size.  A score is a function of its key, so what the table
remembers never goes out of date, and whatever it was asked before, it answers with the score of the key
(`ask_fst`); when the table is full, it is emptied before the next score goes in.

Beside the scores the table keeps books (`ScoreTable.Usage`): how often it was asked and could answer, how
often it could not, how often it was emptied, and how many scores it holds.  Each is a number of its own, which
is brought up to date where something happens.
-/

namespace EntityQuery.Attire

/-- What a score depends on. -/
abbrev ScoreKey := Prominence × Layer

/-- The books of a table. -/
structure ScoreTable.Usage where
  hits : Nat := 0
  misses : Nat := 0
  evictions : Nat := 0
  currentSize : Nat := 0
  capacity : Nat
deriving DecidableEq

structure ScoreTable extends usage : ScoreTable.Usage where
  /-- The most scores that are remembered at a time, at least one. -/
  room : Nat
  scores : List (ScoreKey × Nat) := []
  /-- What is remembered of a key is its score. -/
  sound : ∀ e ∈ scores, e.2 = e.1.1.score e.1.2 := by simp
deriving DecidableEq

namespace ScoreTable

def defaultCapacity : Nat :=
  256

/-- An empty table. -/
def ofCapacity (capacity : Nat) : ScoreTable :=
  { room := max capacity 1, capacity := max capacity 1 }

instance : Inhabited ScoreTable := ⟨ofCapacity defaultCapacity⟩

/-- The remembered score of a key. -/
def find? (t : ScoreTable) (key : ScoreKey) : Option Nat :=
  (t.scores.find? (·.1 = key)).map (·.2)

def size (t : ScoreTable) : Nat :=
  t.scores.length

def isFull (t : ScoreTable) : Bool :=
  t.room ≤ t.size

/-- The table without its scores, which was full. -/
def evict (t : ScoreTable) : ScoreTable :=
  { t with
    scores := []
    evictions := t.evictions + 1
    sound := by simp }

/-- The table with the score of a key as well, and with how many scores it has then. -/
def insert (t : ScoreTable) (key : ScoreKey) : ScoreTable :=
  let scores := (key, key.1.score key.2) :: t.scores
  { t with
    scores
    currentSize := scores.length
    sound := by
      intro e he
      rcases List.mem_cons.1 he with rfl | he
      · rfl
      · exact t.sound e he }

/-- The table with the score of a key that it did not remember; emptied first, if it is full. -/
def remember (t : ScoreTable) (key : ScoreKey) : ScoreTable :=
  let t := { t with misses := t.misses + 1 }
  (if t.isFull then t.evict else t).insert key

/-- The score of a key, from the table if it remembers it. -/
def ask (t : ScoreTable) (key : ScoreKey) : Nat × ScoreTable :=
  match t.find? key with
  | some score => (score, { t with hits := t.hits + 1 })
  | none       => (key.1.score key.2, t.remember key)

theorem eq_score_of_find? {t : ScoreTable} {key : ScoreKey} {score : Nat}
    (h : t.find? key = some score) : score = key.1.score key.2 := by
  rw [find?, Option.map_eq_some_iff] at h
  obtain ⟨e, he, rfl⟩ := h
  have hkey : e.1 = key := by simpa using List.find?_some he
  rw [← hkey]
  exact t.sound e (List.mem_of_find?_eq_some he)

/-- What the table remembers changes no answer. -/
@[simp] theorem ask_fst (t : ScoreTable) (key : ScoreKey) :
    (t.ask key).1 = key.1.score key.2 := by
  rw [ask]
  split
  · rename_i h
    exact eq_score_of_find? h
  · rfl

/-- Forgets all scores and starts counting anew. -/
def clear (t : ScoreTable) : ScoreTable :=
  { t with
    scores := []
    usage := { capacity := t.room }
    sound := by simp }

namespace Usage

/-- The fraction of questions that the table could answer; zero if there were none. -/
def hitRate (u : Usage) : Float :=
  if u.hits + u.misses = 0 then 0.0 else Float.ofNat u.hits / Float.ofNat (u.hits + u.misses)

def fieldNames : List String :=
  ["hits", "misses", "evictions", "current_size", "capacity"]

def toJson (u : Usage) : Json :=
  .object (fieldNames.zip
    ([u.hits, u.misses, u.evictions, u.currentSize, u.capacity].map .ofNat))

def ofJson? (v : Json) : Option Usage := do
  match (← v.record? fieldNames).mapM Json.nat? with
  | some [hits, misses, evictions, currentSize, capacity] =>
      return { hits, misses, evictions, currentSize, capacity }
  | _ => none

end Usage

end ScoreTable

end EntityQuery.Attire
