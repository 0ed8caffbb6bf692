import Turnstile.Whole

/-!
Internet addresses and their text.

The text of an address of version 6 drops the first longest run of zero groups, if it is longer than one
group; an address that stands for one of version 4 ends in that address.
-/

namespace Turnstile

/-- An internet address of version 4 or 6. -/
inductive Address where
  | v4 (a b c d : UInt8)
  | v6 (groups : Vector UInt16 8)
  deriving DecidableEq

namespace Address

def textV4 (a b c d : Nat) : String := s!"{a}.{b}.{c}.{d}"

/-- A group in hexadecimal digits, none to spare. -/
def groupText (g : UInt16) : String := String.ofList (Nat.toDigits 16 g.toNat)

def groupsText (groups : List UInt16) : String := String.intercalate ":" (groups.map groupText)

/-- Start and length of the first longest run of zero groups; `index` counts the groups passed. -/
def longestZeros (index : Nat) (current longest : Nat × Nat) : List UInt16 → Nat × Nat
  | [] => longest
  | g :: rest =>
    if g = 0 then
      let current := if current.2 = 0 then (index, 1) else (current.1, current.2 + 1)
      longestZeros (index + 1) current (if longest.2 < current.2 then current else longest) rest
    else longestZeros (index + 1) (0, 0) longest rest

def textV6 (groups : List UInt16) : String :=
  match groups with
  | [0, 0, 0, 0, 0, 0xffff, hi, lo] =>
    "::ffff:" ++ textV4 (hi.toNat / 256) (hi.toNat % 256) (lo.toNat / 256) (lo.toNat % 256)
  | groups =>
    let (start, length) := longestZeros 0 (0, 0) (0, 0) groups
    if 1 < length then groupsText (groups.take start) ++ "::" ++ groupsText (groups.drop (start + length))
    else groupsText groups

/-- The text of an address. -/
def text : Address → String
  | .v4 a b c d => textV4 a.toNat b.toNat c.toNat d.toNat
  | .v6 groups => textV6 groups.toList

end Address

/-- An address with a port. A zone of zero is no zone. -/
structure Endpoint where
  address : Address
  port : UInt16
  zone : UInt32
  deriving DecidableEq

namespace Endpoint

/-- The text of an endpoint: its port behind a colon, an address of version 6 in brackets. -/
def text (e : Endpoint) : String :=
  match e.address with
  | .v4 .. => e.address.text ++ s!":{e.port.toNat}"
  | .v6 _ =>
    let zone := if e.zone = 0 then "" else s!"%{e.zone.toNat}"
    "[" ++ e.address.text ++ zone ++ s!"]:{e.port.toNat}"

/-- The value of a digit in the given radix. -/
def digit? (radix : Nat) (c : Char) : Option Nat :=
  let value? :=
    if c.isDigit then some (c.toNat - '0'.toNat)
    else if 'a' ≤ c ∧ c ≤ 'f' then some (c.toNat - 'a'.toNat + 10)
    else if 'A' ≤ c ∧ c ≤ 'F' then some (c.toNat - 'A'.toNat + 10)
    else none
  value?.filter (· < radix)

/-- A number below `limit` of at most `digits` digits, and what follows it. -/
def number (radix limit : Nat) (digits : Option Nat) (cs : List Char) : Option (Nat × List Char) :=
  let run := cs.takeWhile fun c => (digit? radix c).isSome
  let n := (run.filterMap (digit? radix)).foldl (fun n d => n * radix + d) 0
  if run.isEmpty || limit ≤ n || digits.any (· < run.length) then none
  else some (n, cs.dropWhile fun c => (digit? radix c).isSome)

def given (c : Char) : List Char → Option (List Char)
  | d :: rest => if c = d then some rest else none
  | [] => none

/-- One of the four parts of an address of version 4: no zero in front of other digits. -/
def part (cs : List Char) : Option (Nat × List Char) := do
  let (n, rest) ← number 10 256 (some 3) cs
  if cs.head? = some '0' ∧ 1 < cs.length - rest.length then none else some (n, rest)

def readV4 (cs : List Char) : Option ((Nat × Nat × Nat × Nat) × List Char) := do
  let (a, cs) ← part cs
  let (b, cs) ← part (← given '.' cs)
  let (c, cs) ← part (← given '.' cs)
  let (d, cs) ← part (← given '.' cs)
  return ((a, b, c, d), cs)

/-- Groups with colons between them, at most `limit`, of which the last two may be written as an address of
    version 4. Gives the groups, last first, and whether they were written so. -/
def readGroups (limit : Nat) : Nat → List Nat → List Char → List Nat × Bool × List Char
  | 0, done, cs => (done, false, cs)
  | fuel + 1, done, cs =>
    if limit ≤ done.length then (done, false, cs)
    else
      let here? := if done.isEmpty then some cs else given ':' cs
      let embedded? := if done.length + 1 < limit then here?.bind readV4 else none
      match embedded? with
      | some ((a, b, c, d), cs) => ((c * 256 + d) :: (a * 256 + b) :: done, true, cs)
      | none =>
        match here?.bind (number 16 word16Limit (some 4)) with
        | some (g, cs) => readGroups limit fuel (g :: done) cs
        | none => (done, false, cs)

def readV6 (cs : List Char) : Option (List Nat × List Char) := do
  let (head, embedded, cs) := readGroups 8 8 [] cs
  if head.length = 8 then some (head.reverse, cs)
  else if embedded then none
  else
    let cs ← given ':' (← given ':' cs)
    let (tail, _, cs) := readGroups (7 - head.length) 8 [] cs
    some (head.reverse ++ List.replicate (8 - head.length - tail.length) 0 ++ tail.reverse, cs)

def readPort (cs : List Char) : Option UInt16 := do
  let (port, rest) ← number 10 word16Limit none (← given ':' cs)
  if rest.isEmpty then some (.ofNat port) else none

/-- Reads an address with a port: `1.2.3.4:80`, `[::1]:80`, `[fe80::1%2]:80`. -/
def read (s : String) : Option Endpoint :=
  let cs := s.toList
  match readV4 cs with
  | some ((a, b, c, d), rest) => do
    let port ← readPort rest
    return ⟨.v4 (.ofNat a) (.ofNat b) (.ofNat c) (.ofNat d), port, 0⟩
  | none => do
    let (groups, rest) ← readV6 (← given '[' cs)
    let (zone, rest) ← match rest with
      | '%' :: more => number 10 word32Limit none more
      | rest => some (0, rest)
    let port ← readPort (← given ']' rest)
    let groups := groups.map UInt16.ofNat
    if h : groups.length = 8 then return ⟨.v6 ⟨groups.toArray, by simpa using h⟩, port, .ofNat zone⟩ else none

end Endpoint

end Turnstile
