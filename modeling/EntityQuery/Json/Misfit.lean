import EntityQuery.Json.Printer

/-!
# Misfits

Data of the wrong form is refused with a reason: what was found, and what was expected in its place.  The
reason is about the first part that does not fit.  An array's parts are read from the first to the last,
those of an object in the order in which it keeps them.

The readers here accept the same values as `str?`, `strings?` and `word?`, and say why they accept no others.
-/

namespace EntityQuery.Json

/-- Why a value does not have the form that is asked for. -/
inductive Misfit where
  /-- The value is of another kind. -/
  | kind (found : Json) (expected : String)
  /-- An object that stands for a word has no member, or more than one. -/
  | notOneMember
  /-- An array has too few values, or more than are asked for. -/
  | length (found : Nat) (expected : String)
  /-- A record leaves a field out. -/
  | missing (field : String)
  /-- A word is not in the vocabulary. -/
  | unknown (word : String) (vocabulary : List String)
deriving DecidableEq

namespace Misfit

/-- A character of a text that was found: quotes, backslashes and control characters are escaped. -/
def escaped (c : Char) : List Char :=
  if c = '"' then ['\\', '"']
  else if c = '\\' then ['\\', '\\']
  else if c = '\t' then ['\\', 't']
  else if c = '\n' then ['\\', 'n']
  else if c = '\r' then ['\\', 'r']
  else if c = '\x00' then ['\\', '0']
  else if c.toNat < 0x20 ∨ (0x7f ≤ c.toNat ∧ c.toNat < 0xa0) then
    '\\' :: 'u' :: '\x7b' :: (Nat.toDigits 16 c.toNat ++ ['\x7d'])
  else [c]

def ticked (s : String) : String :=
  "`" ++ s ++ "`"

/-- What is said of a value that was found: arrays and objects are named only, all else is shown. -/
def describe : Json → String
  | .null           => "null"
  | .bool b         => "boolean " ++ ticked (text (.bool b))
  | .num (.int i)   => "integer " ++ ticked (text (.num (.int i)))
  | .num (.float x) => "floating point " ++ ticked (text (.num (.float x)))
  | .str s          => "string " ++ String.ofList ('"' :: (s.toList.flatMap escaped ++ ['"']))
  | .arr _          => "sequence"
  | .obj _          => "map"

/-- The reason as it is told.  A vocabulary has three words or more. -/
def message : Misfit → String
  | kind found expected     => "invalid type: " ++ describe found ++ ", expected " ++ expected
  | notOneMember            => "invalid value: map, expected map with a single key"
  | length found expected   => "invalid length " ++ Number.natText found ++ ", expected " ++ expected
  | missing field           => "missing field " ++ ticked field
  | unknown word vocabulary =>
      "unknown variant " ++ ticked word ++ ", expected one of "
        ++ ", ".intercalate (vocabulary.map ticked)

end Misfit

/-! ### Readers -/

def string : Json → Except Misfit String
  | str s => .ok s
  | v     => .error (.kind v "a string")

/-- The strings of an array of strings. -/
def strings : Json → Except Misfit (List String)
  | arr vs => vs.mapM string
  | v      => .error (.kind v "a sequence")

/-- What a value means that is a word of a vocabulary.  The word itself is read before the member that it
may be the name of. -/
def word {α : Type} (vocabulary : List String) (ofName? : String → Option α) : Json → Except Misfit α
  | str s        => meaning s
  | obj [(s, v)] => do
      let a ← meaning s
      if v.isNull then return a else .error (.kind v "unit")
  | obj _        => .error .notOneMember
  | v            => .error (.kind v "string or map")
where
  meaning (s : String) : Except Misfit α :=
    match ofName? s with
    | some a => .ok a
    | none   => .error (.unknown s vocabulary)

end EntityQuery.Json
