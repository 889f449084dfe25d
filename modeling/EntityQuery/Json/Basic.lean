import EntityQuery.Number.Basic
import EntityQuery.Table

/-!
# JSON values

The data of a component, the operands of a predicate and the written form of everything are JSON
values.  An object's members are kept once per name and in ascending order of the names; `object`
brings a list of members into that form, and every value built here from text or from such parts has
it (`Canonical`).

Two relations tell values apart.  `=` is identity, down to the sign of a zero; `same` is equality of
what the values say, for which `0.0` and `-0.0` are one number.
-/

namespace EntityQuery

inductive Json where
  | null
  | bool (b : Bool)
  | num (n : Number)
  | str (s : String)
  | arr (items : List Json)
  | obj (members : List (String × Json))

namespace Json

instance : Inhabited Json := ⟨null⟩

/-! ### Identity -/

mutual

/-- Identity of values is decided by comparing them part by part. -/
def decEq : (v w : Json) → Decidable (v = w)
  | null,   null   => isTrue rfl
  | bool a, bool b => decidable_of_iff (a = b) (by simp)
  | num m,  num n  => decidable_of_iff (m = n) (by simp)
  | str s,  str t  => decidable_of_iff (s = t) (by simp)
  | arr vs, arr ws =>
      match decEqItems vs ws with
      | isTrue h  => isTrue (by rw [h])
      | isFalse h => isFalse (by simpa using h)
  | obj ms, obj ns =>
      match decEqMembers ms ns with
      | isTrue h  => isTrue (by rw [h])
      | isFalse h => isFalse (by simpa using h)
  | null,   bool _ | null,   num _  | null,   str _  | null,   arr _  | null,   obj _  => isFalse nofun
  | bool _, null   | bool _, num _  | bool _, str _  | bool _, arr _  | bool _, obj _  => isFalse nofun
  | num _,  null   | num _,  bool _ | num _,  str _  | num _,  arr _  | num _,  obj _  => isFalse nofun
  | str _,  null   | str _,  bool _ | str _,  num _  | str _,  arr _  | str _,  obj _  => isFalse nofun
  | arr _,  null   | arr _,  bool _ | arr _,  num _  | arr _,  str _  | arr _,  obj _  => isFalse nofun
  | obj _,  null   | obj _,  bool _ | obj _,  num _  | obj _,  str _  | obj _,  arr _  => isFalse nofun

def decEqItems : (vs ws : List Json) → Decidable (vs = ws)
  | [],      []      => isTrue rfl
  | v :: vs, w :: ws =>
      match decEq v w, decEqItems vs ws with
      | isTrue h,  isTrue h' => isTrue (by rw [h, h'])
      | isFalse h, _         => isFalse (by simp [h])
      | _,         isFalse h => isFalse (by simp [h])
  | [],      _ :: _  => isFalse nofun
  | _ :: _,  []      => isFalse nofun

def decEqMembers : (ms ns : List (String × Json)) → Decidable (ms = ns)
  | [],           []           => isTrue rfl
  | (k, v) :: ms, (l, w) :: ns =>
      match (inferInstance : Decidable (k = l)), decEq v w, decEqMembers ms ns with
      | isTrue h,  isTrue h', isTrue h'' => isTrue (by rw [h, h', h''])
      | isFalse h, _,         _          => isFalse (by simp [h])
      | _,         isFalse h, _          => isFalse (by simp [h])
      | _,         _,         isFalse h  => isFalse (by simp [h])
  | [],           _ :: _       => isFalse nofun
  | _ :: _,       []           => isFalse nofun

end

instance : DecidableEq Json := decEq

/-! ### Equality -/

mutual

/-- Equality of values: of one kind, and equal in all parts. -/
def same : Json → Json → Bool
  | null,   null   => true
  | bool a, bool b => a = b
  | num m,  num n  => m.same n
  | str s,  str t  => s = t
  | arr vs, arr ws => sameItems vs ws
  | obj ms, obj ns => sameMembers ms ns
  | _,      _      => false

def sameItems : List Json → List Json → Bool
  | [],      []      => true
  | v :: vs, w :: ws => same v w && sameItems vs ws
  | _,       _       => false

def sameMembers : List (String × Json) → List (String × Json) → Bool
  | [],           []           => true
  | (k, v) :: ms, (l, w) :: ns => k = l && same v w && sameMembers ms ns
  | _,            _            => false

end

/-! ### Parts -/

/-- What a value is. -/
inductive Kind where
  | null
  | boolean
  | number
  | string
  | array
  | object
deriving DecidableEq

def Kind.name : Kind → String
  | .null    => "null"
  | .boolean => "boolean"
  | .number  => "number"
  | .string  => "string"
  | .array   => "array"
  | .object  => "object"

def kind : Json → Kind
  | null   => .null
  | bool _ => .boolean
  | num _  => .number
  | str _  => .string
  | arr _  => .array
  | obj _  => .object

def isNull : Json → Bool
  | null => true
  | _    => false

/-- The member of that name, if the value is an object that has one. -/
def member? (name : String) : Json → Option Json
  | obj ms => Entries.get? name ms
  | _      => none

/-- The object with these members; of two of one name the later counts. -/
def object (members : List (String × Json)) : Json :=
  obj (Entries.ofList members)

def ofTable (t : Table Json) : Json :=
  obj t.entries

def ofNat (n : Nat) : Json :=
  num (.int n)

/-- The integer that a value is. -/
def int? : Json → Option Int
  | num (.int i) => some i
  | _            => none

def bool? : Json → Option Bool
  | bool b => some b
  | _      => none

def str? : Json → Option String
  | str s => some s
  | _     => none

def arr? : Json → Option (List Json)
  | arr vs => some vs
  | _      => none

/-- The members of an object. -/
def members? : Json → Option (List (String × Json))
  | obj ms => some ms
  | _      => none

/-! ### Canonical form -/

/-- In every object the members ascend. -/
inductive Canonical : Json → Prop where
  | null : Canonical null
  | bool (b : Bool) : Canonical (bool b)
  | num (n : Number) : Canonical (num n)
  | str (s : String) : Canonical (str s)
  | arr (items : List Json) (h : ∀ v ∈ items, Canonical v) : Canonical (arr items)
  | obj (members : List (String × Json)) (ascending : Entries.Ascending members)
      (h : ∀ m ∈ members, Canonical m.2) : Canonical (obj members)

end Json

end EntityQuery
