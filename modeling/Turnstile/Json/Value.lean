import Turnstile.Decimal.Text

/-!
JSON values and their compact text.

An object keeps its members in the order they are listed. `Value.put` keeps a list sorted by name with one
member a name, and `Value.sorted` brings a whole value into that form.
-/

namespace Turnstile.Json

/-- A value. Whole numbers and doubles stay apart, as they do in text. -/
inductive Value where
  | null
  | bool (b : Bool)
  | integer (n : Int)
  | real (x : Binary64)
  | text (s : String)
  | array (items : List Value)
  | object (members : List (String × Value))
  deriving Repr, Inhabited

/-- A four-digit escape of a control character. -/
def controlEscape (c : Char) : List Char :=
  let digits := Nat.toDigits 16 c.toNat
  ['\\', 'u'] ++ List.replicate (4 - digits.length) '0' ++ digits

/-- One character as it stands in a string. -/
def escapeChar (c : Char) : List Char :=
  if c = '"' then ['\\', '"']
  else if c = '\\' then ['\\', '\\']
  else if c = '\n' then ['\\', 'n']
  else if c = '\r' then ['\\', 'r']
  else if c = '\t' then ['\\', 't']
  else if c.toNat = 8 then ['\\', 'b']
  else if c.toNat = 12 then ['\\', 'f']
  else if c.toNat < 32 then controlEscape c
  else [c]

def stringChars (s : String) : List Char := '"' :: (s.toList.flatMap escapeChar ++ ['"'])

/-- A double in JSON; a value that JSON has no text for is `null`. -/
def realChars (x : Binary64) : List Char :=
  if x.isNaN || x.isInfinite then "null".toList else (Decimal.compact x).toList

namespace Value

mutual

/-- The compact text, character by character. -/
def chars : Value → List Char
  | .null => "null".toList
  | .bool b => (if b then "true" else "false").toList
  | .integer n => (toString n).toList
  | .real x => realChars x
  | .text s => stringChars s
  | .array items => '[' :: (itemsChars items ++ [']'])
  | .object members => '\x7b' :: (membersChars members ++ ['\x7d'])

def itemsChars : List Value → List Char
  | [] => []
  | [v] => v.chars
  | v :: rest => v.chars ++ ',' :: itemsChars rest

def membersChars : List (String × Value) → List Char
  | [] => []
  | [(name, v)] => stringChars name ++ ':' :: v.chars
  | (name, v) :: rest => stringChars name ++ ':' :: (v.chars ++ ',' :: membersChars rest)

end

/-- The compact text. -/
def render (v : Value) : String := String.ofList v.chars

/-- Sets a member in a list sorted by name, replacing one of the same name. -/
def put (name : String) (v : Value) : List (String × Value) → List (String × Value)
  | [] => [(name, v)]
  | (other, w) :: rest =>
    if name < other then (name, v) :: (other, w) :: rest
    else if name = other then (name, v) :: rest
    else (other, w) :: put name v rest

mutual

/-- The same value with the members of every object sorted by name; of two members with one name the later
    stays. -/
def sorted : Value → Value
  | .array items => .array (sortedItems items)
  | .object members => .object (sortedMembers members [])
  | other => other

def sortedItems : List Value → List Value
  | [] => []
  | v :: rest => v.sorted :: sortedItems rest

def sortedMembers : List (String × Value) → List (String × Value) → List (String × Value)
  | [], done => done
  | (name, v) :: rest, done => sortedMembers rest (put name v.sorted done)

end

/-- The member of that name, when the value is an object that has one. -/
def member? (name : String) : Value → Option Value
  | .object members => (members.find? (·.1 == name)).map (·.2)
  | _ => none

/-- A count as a value. -/
def ofNat (n : Nat) : Value := .integer n

/-- A value or `null`. -/
def ofOption {α : Type} (f : α → Value) : Option α → Value
  | none => .null
  | some a => f a

end Value

end Turnstile.Json
