import Turnstile.Json.Reader

/-!
Readers of JSON texts of a fixed shape.

A record may be written as an object, where members it does not know are passed over, or as an array of its
fields in order. `Slot` says how one field is read and what stands for it when it is left out.
-/

namespace Turnstile.Json

open Text (Glyph)

namespace Reader

variable {α δ : Type}

/-- Reports what stands here as the wrong type. Brackets are not entered. -/
def wrongTypeHere (expected : String) : Reader α := placed do
  let found : Found ← do
    match (← get).peek? with
    | some (.char c) =>
      if c = 'n' then
        bump
        word "ull".toList
        pure .null
      else if c = 't' then
        bump
        word "rue".toList
        pure (.bool true)
      else if c = 'f' then
        bump
        word "alse".toList
        pure (.bool false)
      else if c = '-' then
        bump
        pure (← number true).found
      else if c.isDigit then pure (← number false).found
      else if c = '"' then
        bump
        pure (.text (← string))
      else if c = '[' then pure .sequence
      else if c = '\x7b' then pure .map
      else failAhead .valueExpected
    | _ => failAhead .valueExpected
  failUnplaced (.wrongType found expected)

/-- Gives an answer, or a fault that is placed later. -/
def judged : Except Cause α → Reader α
  | .ok a => return a
  | .error cause => failUnplaced cause

/-- A string that `judge` turns into an answer. -/
def stringAs (expected : String) (judge : String → Except Cause α) : Reader α := placed do
  match ← skipBlanks with
  | none => failAhead .endInValue
  | some g =>
    if g = .char '"' then
      bump
      judged (judge (← string))
    else wrongTypeHere expected

def text : Reader String := stringAs "a string" .ok

/-- A number that `judge` turns into an answer. -/
def numberAs (expected : String) (judge : Number → Except Cause α) : Reader α := placed do
  match ← skipBlanks with
  | none => failAhead .endInValue
  | some (.char c) =>
    if c = '-' then
      bump
      judged (judge (← number true))
    else if c.isDigit then judged (judge (← number false))
    else wrongTypeHere expected
  | some _ => wrongTypeHere expected

/-- Judges a number as a whole number below `limit`. -/
def wholeBelow (limit : Nat) (expected : String) : Number → Except Cause Nat
  | .integer n =>
    if 0 ≤ n ∧ n < limit then .ok n.toNat else .error (.wrongValue (.integer n) expected)
  | .real x => .error (.wrongType (.real x) expected)

def word16 : Reader Nat := numberAs "u16" (wholeBelow word16Limit "u16")

def word32 : Reader UInt32 := return .ofNat (← numberAs "u32" (wholeBelow word32Limit "u32"))

def word64 : Reader Nat := numberAs "u64" (wholeBelow word64Limit "u64")

/-- The double nearest to a whole number. -/
def realOfInt (n : Int) : Binary64 := .nearest (n < 0) n.natAbs 1

def real : Reader Binary64 := numberAs "f64" fun
  | .integer n => .ok (realOfInt n)
  | .real x => .ok x

def flag : Reader Bool := do
  match ← skipBlanks with
  | none => failAhead .endInValue
  | some g =>
    if g = .char 't' then
      bump
      word "rue".toList
      return true
    else if g = .char 'f' then
      bump
      word "alse".toList
      return false
    else wrongTypeHere "a boolean"

/-- `null`, or a value. -/
def optional (r : Reader α) : Reader (Option α) := do
  if (← skipBlanks) = some (.char 'n') then
    bump
    word "ull".toList
    return none
  else return some (← r)

/-- The items of an array; `done` holds those read, last first. -/
def listFrom (r : Reader α) : Nat → Bool → List α → Reader (List α)
  | 0, _, _ => failAhead .endInList
  | fuel + 1, first, done => do
    if ← hasItem first then
      let a ← r
      listFrom r fuel false (a :: done)
    else return done.reverse

/-- An array of items of one shape. -/
def list (r : Reader α) : Reader (List α) := placed do
  match ← skipBlanks with
  | none => failAhead .endInValue
  | some g =>
    if g = .char '[' then enclosed (do listFrom r (← steps) true []) closeList
    else wrongTypeHere "a sequence"

/-- An array of two texts. -/
def textPair : Reader (String × String) := placed do
  let expected := "a tuple of size 2"
  match ← skipBlanks with
  | none => failAhead .endInValue
  | some g =>
    if g = .char '[' then
      enclosed (do
        if ← hasItem true then
          let a ← text
          if ← hasItem false then return (a, ← text)
          else failUnplaced (.wrongLength 1 expected)
        else failUnplaced (.wrongLength 0 expected)) closeList
    else wrongTypeHere expected

/-- The name of one of the known variants. -/
def variantName (known : List String) : Reader String :=
  stringAs "variant identifier" fun name =>
    if known.contains name then .ok name else .error (.unknownVariant name known)

/-- A variant without content: its name, or an object from its name to `null`. -/
def variant (known : List String) : Reader String := do
  match ← skipBlanks with
  | none => failAhead .endInValue
  | some g =>
    if g = .char '"' then variantName known
    else if g = .char '\x7b' then
      let name ← deeper do
        bump
        match ← skipBlanks with
        | none => failAhead .endInObject
        | some g =>
          if g = .char '\x7d' then failAhead .valueExpected
          else if g ≠ .char '"' then failAhead .nameExpected
        let name ← variantName known
        colon
        match ← skipBlanks with
        | none => failAhead .endInValue
        | some g =>
          if g = .char 'n' then
            bump
            word "ull".toList
          else wrongTypeHere "unit"
        return name
      match ← skipBlanks with
      | none => failHere .endInObject
      | some g =>
        if g = .char '\x7d' then
          bump
          return name
        else failHere .valueExpected
    else failAhead .valueExpected

/-- One field of a record that is being read into a draft. -/
structure Slot (δ : Type) where
  name : String
  /-- Whether the draft has the field. -/
  filled : δ → Bool
  /-- Reads the field into the draft. -/
  read : δ → Reader δ
  /-- The draft when an object leaves the field out; `none` if it may not. -/
  absent : δ → Option δ
  /-- The draft when an array ends before the field; `none` if it may not. -/
  short : δ → Option δ

/-- The fields in the order of an array. -/
def slotItems (expected : String) : Nat → Bool → List (Slot δ) → δ → Reader δ
  | _, _, [], draft => return draft
  | index, first, slot :: rest, draft => do
    if ← hasItem first then
      let draft ← within (.item index) (slot.read draft)
      slotItems expected (index + 1) false rest draft
    else
      match slot.short draft with
      | some draft => slotItems expected (index + 1) first rest draft
      | none => failUnplaced (.wrongLength index expected)

/-- The members of an object, each into its slot. -/
def slotMembers (slots : List (Slot δ)) : Nat → Bool → δ → Reader δ
  | 0, _, _ => failAhead .endInObject
  | fuel + 1, first, draft => do
    if ← hasMember first then
      let name ← string
      match slots.find? (·.name == name) with
      | none =>
        colon
        within (.member name) valueSkipped
        slotMembers slots fuel false draft
      | some slot =>
        if slot.filled draft then failUnplaced (.repeatedField name)
        else
          colon
          let draft ← within (.member name) (slot.read draft)
          slotMembers slots fuel false draft
    else return draft

/-- Fills in the fields that an object left out. -/
def completed : List (Slot δ) → δ → Except Cause δ
  | [], draft => .ok draft
  | slot :: rest, draft =>
    if slot.filled draft then completed rest draft
    else match slot.absent draft with
      | some draft => completed rest draft
      | none => .error (.missingField slot.name)

/-- A record of the given name. -/
def record (name : String) (slots : List (Slot δ)) (draft : δ) : Reader δ := placed do
  let count := slots.length
  let expected := "struct " ++ name
  match ← skipBlanks with
  | none => failAhead .endInValue
  | some g =>
    if g = .char '[' then
      let elements := if count = 1 then " with 1 element" else s!" with {count} elements"
      enclosed (slotItems (expected ++ elements) 0 true slots draft) closeList
    else if g = .char '\x7b' then
      enclosed (do judged (completed slots (← slotMembers slots (← steps) true draft))) closeObject
    else wrongTypeHere expected

/-- A field that must be given. -/
def needed {β : Type} (name : String) (get : δ → Option β) (set : δ → β → δ) (r : Reader β) : Slot δ where
  name := name
  filled d := (get d).isSome
  read d := return set d (← r)
  absent _ := none
  short _ := none

/-- A field that may be `null`; an object may leave it out, an array may not. -/
def nullable {β : Type} (name : String) (get : δ → Option (Option β)) (set : δ → Option β → δ) (r : Reader β) :
    Slot δ where
  name := name
  filled d := (get d).isSome
  read d := return set d (← optional r)
  absent d := some (set d none)
  short _ := none

/-- A field that has a value when it is left out. -/
def defaulted {β : Type} (name : String) (get : δ → Option β) (set : δ → β → δ) (otherwise : β) (r : Reader β) :
    Slot δ where
  name := name
  filled d := (get d).isSome
  read d := return set d (← r)
  absent d := some (set d otherwise)
  short d := some (set d otherwise)

end Reader

end Turnstile.Json
