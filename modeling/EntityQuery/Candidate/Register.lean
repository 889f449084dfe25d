import EntityQuery.Candidate.Basic

/-!
# Registers of candidates

A register keeps candidates twice: in the order in which they came, and once more to look them up by their
hash.  Two candidates are taken for one if they have one hash and are equal.
-/

namespace EntityQuery

/-- What is hashed of a candidate: its key, but of a value the text. -/
def Candidate.hashed : Candidate → Key
  | value v => .value (.str v.text)
  | c       => c.key

/-- Candidates that are kept twice. -/
structure Register where
  /-- The candidates in the order in which they came. -/
  items : List Candidate
  /-- The candidates to look up. -/
  seen : List Candidate

namespace Register

variable (hash : Candidate.Key → UInt64)

/-- Whether a candidate is among those to look up that has the hash of `c` and is equal. -/
def contains (r : Register) (c : Candidate) : Bool :=
  r.seen.any fun d => hash c.hashed = hash d.hashed ∧ c.same d

/-- Puts `c` in twice, unless it is there; also whether it was put in. -/
def insert (r : Register) (c : Candidate) : Bool × Register :=
  if r.contains hash c then (false, r) else (true, ⟨r.items ++ [c], c :: r.seen⟩)

def extend (r : Register) (cs : List Candidate) : Register :=
  cs.foldl (fun r c => (r.insert hash c).2) r

def ofList (cs : List Candidate) : Register :=
  extend hash ⟨[], []⟩ cs

end Register

end EntityQuery
