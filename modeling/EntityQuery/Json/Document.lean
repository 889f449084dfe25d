import EntityQuery.Json.Basic
import EntityQuery.Number.Text

/-!
# Documents

A document is a text that has the form of a value.  It need not have a value: a number may be beyond
the range of doubles, and an escape may name half of a surrogate pair.  Such a part does no harm where
nobody reads it, so the form and the value are told apart: `Document.ofText?` checks the form, and
`Document.value?` gives the value, if every part has one.

A text is first cut into tokens, character by character, and the tokens are then put together, token
by token, with the arrays and objects that are still open on a stack.  Both passes follow their list.
-/

namespace EntityQuery

/-- A piece of a quoted text: a character, or a sixteen-bit unit that an escape gives by its number. -/
inductive Piece where
  | char (c : Char)
  | unit (u : Nat)
deriving DecidableEq

namespace Piece

def isHighSurrogate (u : Nat) : Bool :=
  0xd800 ≤ u ∧ u < 0xdc00

def isLowSurrogate (u : Nat) : Bool :=
  0xdc00 ≤ u ∧ u < 0xe000

/-- The characters of a text.  A high surrogate and the low one right after it are one character; a
surrogate without its partner is none. -/
def chars? : List Piece → Option (List Char)
  | []                         => some []
  | .char c :: ps              => (chars? ps).map (c :: ·)
  | .unit u :: .unit v :: ps   =>
      if isHighSurrogate u then
        if isLowSurrogate v then
          (chars? ps).map (Char.ofNat (0x10000 + (u - 0xd800) * 0x400 + (v - 0xdc00)) :: ·)
        else none
      else if isLowSurrogate u then none
      else (chars? (.unit v :: ps)).map (Char.ofNat u :: ·)
  | .unit u :: ps              =>
      if isHighSurrogate u ∨ isLowSurrogate u then none
      else (chars? ps).map (Char.ofNat u :: ·)

def text? (ps : List Piece) : Option String :=
  (chars? ps).map String.ofList

end Piece

/-! ### Tokens -/

inductive Token where
  | openArray
  | closeArray
  | openObject
  | closeObject
  | comma
  | colon
  /-- A run of letters, digits, signs and points. -/
  | word (chars : List Char)
  | text (pieces : List Piece)
deriving DecidableEq

namespace Token

/-- Where a scan stands: between tokens, in a word, in a quoted text, after a backslash in one, or in
the four digits of a numbered unit.  What was collected so far is kept last part first. -/
inductive Place where
  | gap
  | word (chars : List Char)
  | text (pieces : List Piece)
  | escape (pieces : List Piece)
  | number (pieces : List Piece) (digits : Nat) (value : Nat)

/-- The tokens found so far, the last one first, and where the scan stands. -/
structure Scan where
  tokens : List Token := []
  place : Place := .gap

def isBlank (c : Char) : Bool :=
  c = ' ' ∨ c = '\n' ∨ c = '\t' ∨ c = '\r'

def isWordChar (c : Char) : Bool :=
  c.isAlphanum ∨ c = '+' ∨ c = '-' ∨ c = '.'

/-- The character that a letter after a backslash stands for. -/
def shortEscape? (c : Char) : Option Char :=
  if c = '"' ∨ c = '\\' ∨ c = '/' then some c
  else if c = 'b' then some '\x08'
  else if c = 'f' then some '\x0c'
  else if c = 'n' then some '\n'
  else if c = 'r' then some '\r'
  else if c = 't' then some '\t'
  else none

def hexValue? (c : Char) : Option Nat :=
  if c.isDigit then some (c.toNat - '0'.toNat)
  else if 'a' ≤ c ∧ c ≤ 'f' then some (c.toNat - 'a'.toNat + 10)
  else if 'A' ≤ c ∧ c ≤ 'F' then some (c.toNat - 'A'.toNat + 10)
  else none

/-- One character between tokens. -/
def stepGap (tokens : List Token) (c : Char) : Option Scan :=
  if isBlank c then some ⟨tokens, .gap⟩
  else if c = '[' then some ⟨openArray :: tokens, .gap⟩
  else if c = ']' then some ⟨closeArray :: tokens, .gap⟩
  else if c = '\x7b' then some ⟨openObject :: tokens, .gap⟩
  else if c = '\x7d' then some ⟨closeObject :: tokens, .gap⟩
  else if c = ',' then some ⟨comma :: tokens, .gap⟩
  else if c = ':' then some ⟨colon :: tokens, .gap⟩
  else if c = '"' then some ⟨tokens, .text []⟩
  else if isWordChar c then some ⟨tokens, .word [c]⟩
  else none

def Scan.step (s : Scan) (c : Char) : Option Scan :=
  match s.place with
  | .gap => stepGap s.tokens c
  | .word cs =>
      if isWordChar c then some { s with place := .word (c :: cs) }
      else stepGap (.word cs.reverse :: s.tokens) c
  | .text ps =>
      if c = '"' then some ⟨.text ps.reverse :: s.tokens, .gap⟩
      else if c = '\\' then some { s with place := .escape ps }
      else if c.toNat < 0x20 then none
      else some { s with place := .text (.char c :: ps) }
  | .escape ps =>
      if c = 'u' then some { s with place := .number ps 0 0 }
      else (shortEscape? c).map fun e => { s with place := .text (.char e :: ps) }
  | .number ps digits value =>
      (hexValue? c).map fun d =>
        if digits = 3 then { s with place := .text (.unit (16 * value + d) :: ps) }
        else { s with place := .number ps (digits + 1) (16 * value + d) }

/-- The tokens of a scan that ends here. -/
def Scan.finish (s : Scan) : Option (List Token) :=
  match s.place with
  | .gap     => some s.tokens.reverse
  | .word cs => some (.word cs.reverse :: s.tokens).reverse
  | _        => none

def scan? (cs : List Char) : Option (List Token) := do
  (← cs.foldlM Scan.step {}).finish

end Token

/-! ### Documents -/

inductive Document where
  | null
  | bool (b : Bool)
  | num (lexeme : Number.Lexeme)
  | text (pieces : List Piece)
  | arr (items : List Document)
  | obj (members : List (List Piece × Document))

namespace Document

/-- How many members an object has, repeated ones included. -/
def memberCount : Document → Nat
  | obj ms => ms.length
  | _      => 0

/-- The document that a word is. -/
def ofWord? (cs : List Char) : Option Document :=
  if cs = "null".toList then some null
  else if cs = "true".toList then some (bool true)
  else if cs = "false".toList then some (bool false)
  else (Number.Lexeme.parse? cs).map num

/-- An array or object that is not closed yet, with its parts so far, the last one first.  An object
holds the name whose value is being read. -/
inductive Frame where
  | array (items : List Document)
  | object (members : List (List Piece × Document)) (name : List Piece)

/-- What may come next. -/
inductive Expect where
  /-- A value. -/
  | value
  /-- A value, or the end of the array just opened. -/
  | firstItem
  /-- A name. -/
  | name (members : List (List Piece × Document))
  /-- A name, or the end of the object just opened. -/
  | firstName
  /-- The colon after a name. -/
  | colon (members : List (List Piece × Document)) (name : List Piece)
  /-- A comma, or the end of the innermost open array or object. -/
  | rest
  /-- Nothing: the document is complete. -/
  | nothing (document : Document)

structure Assembly where
  stack : List Frame := []
  expect : Expect := .value

/-- A value has been read: it goes into the innermost open array or object. -/
def put (d : Document) : List Frame → Assembly
  | []                   => ⟨[], .nothing d⟩
  | .array ds :: fs      => ⟨.array (d :: ds) :: fs, .rest⟩
  | .object ms n :: fs   => ⟨.object ((n, d) :: ms) [] :: fs, .rest⟩

/-- A token where a value starts. -/
def start (stack : List Frame) : Token → Option Assembly
  | .openArray  => some ⟨.array [] :: stack, .firstItem⟩
  | .openObject => some ⟨stack, .firstName⟩
  | .word cs    => (ofWord? cs).map fun d => put d stack
  | .text ps    => some (put (text ps) stack)
  | _           => none

def Assembly.step (a : Assembly) (t : Token) : Option Assembly :=
  match a.expect, t, a.stack with
  | .value,       t,            fs                  => start fs t
  | .firstItem,   .closeArray,  .array ds :: fs     => some (put (arr ds.reverse) fs)
  | .firstItem,   t,            fs                  => start fs t
  | .firstName,   .closeObject, fs                  => some (put (obj []) fs)
  | .firstName,   .text n,      fs                  => some ⟨fs, .colon [] n⟩
  | .name ms,     .text n,      fs                  => some ⟨fs, .colon ms n⟩
  | .colon ms n,  .colon,       fs                  => some ⟨.object ms n :: fs, .value⟩
  | .rest,        .comma,       .array ds :: fs     => some ⟨.array ds :: fs, .value⟩
  | .rest,        .closeArray,  .array ds :: fs     => some (put (arr ds.reverse) fs)
  | .rest,        .comma,       .object ms _ :: fs  => some ⟨fs, .name ms⟩
  | .rest,        .closeObject, .object ms _ :: fs  => some (put (obj ms.reverse) fs)
  | _,            _,            _                   => none

def ofTokens? (ts : List Token) : Option Document := do
  match (← ts.foldlM Assembly.step {}).expect with
  | .nothing d => some d
  | _          => none

/-- The document that a text is. -/
def ofText? (s : String) : Option Document := do
  ofTokens? (← Token.scan? s.toList)

mutual

/-- The value of a document, if all its numbers and texts have one.  Of two members of one name the
later counts. -/
def value? : Document → Option Json
  | null    => some .null
  | bool b  => some (.bool b)
  | num l   => l.value?.map .num
  | text ps => (Piece.text? ps).map .str
  | arr ds  => (itemValues? ds).map .arr
  | obj ms  => (memberValues? ms).map Json.object

def itemValues? : List Document → Option (List Json)
  | []      => some []
  | d :: ds => do return (← value? d) :: (← itemValues? ds)

def memberValues? : List (List Piece × Document) → Option (List (String × Json))
  | []           => some []
  | (n, d) :: ms => do return (← Piece.text? n, ← value? d) :: (← memberValues? ms)

end

end Document

/-- The value that a text denotes. -/
def Json.ofText? (s : String) : Option Json := do
  (← Document.ofText? s).value?

end EntityQuery
