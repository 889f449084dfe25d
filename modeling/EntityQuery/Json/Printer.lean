import EntityQuery.Json.Basic
import EntityQuery.Number.Text

/-!
# The text of a value

A value is written compactly, with no blanks, its members in the order in which the object keeps them.
A string escapes the quote, the backslash and the characters below the blank, and nothing else.
-/

namespace EntityQuery.Json

/-- A digit of a number to the base sixteen, in lower case. -/
def hexDigit (n : Nat) : Char :=
  if n < 10 then Char.ofNat ('0'.toNat + n) else Char.ofNat ('a'.toNat + (n - 10))

/-- A character as it is written between quotes. -/
def escaped (c : Char) : List Char :=
  if c = '"' then ['\\', '"']
  else if c = '\\' then ['\\', '\\']
  else if 0x20 ≤ c.toNat then [c]
  else if c = '\x08' then ['\\', 'b']
  else if c = '\t' then ['\\', 't']
  else if c = '\n' then ['\\', 'n']
  else if c = '\x0c' then ['\\', 'f']
  else if c = '\r' then ['\\', 'r']
  else ['\\', 'u', '0', '0', hexDigit (c.toNat / 16), hexDigit (c.toNat % 16)]

def quoted (s : String) : String :=
  String.ofList ('"' :: (s.toList.flatMap escaped ++ ['"']))

mutual

/-- The compact text of a value. -/
def text : Json → String
  | null       => "null"
  | bool true  => "true"
  | bool false => "false"
  | num n      => String.ofList n.text
  | str s      => quoted s
  | arr vs     => "[" ++ itemsText vs ++ "]"
  | obj ms     => "\x7b" ++ membersText ms ++ "\x7d"

def itemsText : List Json → String
  | []           => ""
  | [v]          => text v
  | v :: w :: vs => text v ++ "," ++ itemsText (w :: vs)

def membersText : List (String × Json) → String
  | []                => ""
  | [(k, v)]          => quoted k ++ ":" ++ text v
  | (k, v) :: m :: ms => quoted k ++ ":" ++ text v ++ "," ++ membersText (m :: ms)

end

end EntityQuery.Json
