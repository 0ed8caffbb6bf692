import Turnstile.Json.Shape

/-!
The record of an idempotency key and its text in the store.

A record is pending until the operation has a result, then it carries the result. The text of a pending record
is always the same, so that it can be expected by a call that replaces it.
-/

namespace Turnstile

open Json (Value)

/-- The record of a key. -/
inductive Record where
  /-- The key is known, the operation has no result yet. -/
  | pending
  /-- The result. -/
  | resolved (result : Value)

namespace Record

def isResolved : Record → Bool
  | .pending => false
  | .resolved _ => true

/-- The record as a JSON value; the members of a result are in the order of their names. -/
def value : Record → Value
  | .pending => .object [("state", .text "pending")]
  | .resolved result => .object [("state", .text "resolved"), ("value", result.sorted)]

/-- The text in the store. -/
def text (r : Record) : String := r.value.render

/-- The text of a pending record. -/
def placeholder : String := text .pending

end Record

namespace Json.Reader

/-- The names of the two states. -/
def recordStates : List String := ["pending", "resolved"]

/-- What is reported as expected where no record stands. -/
def recordExpected : String := "adjacently tagged enum IdempotencyValue"

/-- Refuses a value where there may be none. Brackets are closed but not entered. -/
def pendingContent : Reader Unit := placed do
  let expected := "unit variant IdempotencyValue::Pending"
  match ← skipBlanks with
  | some (.char 'n') =>
    bump
    word "ull".toList
  | some (.char '[') => enclosed (failUnplaced (.wrongType .sequence expected)) closeList
  | some (.char '\x7b') => enclosed (failUnplaced (.wrongType .map expected)) closeObject
  | none => failAhead .endInValue
  | some _ => wrongTypeHere expected

/-- The content of a record in a known state. -/
def recordContent (state : String) : Reader Record := do
  if state = "pending" then
    pendingContent
    return .pending
  else return .resolved (← value)

/-- A record in a state, out of a content that was read before the state was known. -/
def recordOf (state : String) (content : Value) : Except Cause Record :=
  if state = "pending" then
    match content with
    | .null => .ok .pending
    | v => .error (.wrongType v.found "unit variant IdempotencyValue::Pending")
  else .ok (.resolved content)

/-- The next member that matters, past those that do not. Its name has been read, its colon has not. -/
def nextRelevant (names : List String) : Nat → Bool → Reader (Option String)
  | 0, _ => failAhead .endInObject
  | fuel + 1, first => do
    if ← hasMember first then
      let name ← string
      if names.contains name then return some name
      else
        colon
        valueSkipped
        nextRelevant names fuel false
    else return none

/-- The members of a record: its state and its content in either order, each at most once. -/
def recordMembers : Reader Record := do
  let next (first : Bool) : Reader (Option String) := do
    nextRelevant ["state", "value"] (← steps) first
  let ended (r : Record) : Reader Record := do
    match ← next false with
    | none => return r
    | some name => failUnplaced (.repeatedField name)
  match ← next true with
  | none => failUnplaced (.missingField "state")
  | some name =>
    colon
    if name = "state" then
      let state ← variant recordStates
      match ← next false with
      | none => if state = "pending" then return .pending else failUnplaced (.missingField "value")
      | some name =>
        if name = "state" then failUnplaced (.repeatedField name)
        else
          colon
          ended (← recordContent state)
    else
      let content ← value
      match ← next false with
      | none => failUnplaced (.missingField "state")
      | some name =>
        if name = "value" then failUnplaced (.repeatedField name)
        else
          colon
          let state ← variant recordStates
          ended (← judged (recordOf state content))

/-- The items of a record: the name of its state, then its content. -/
def recordItems : Reader Record := do
  if ← hasItem true then
    let state ← variantName recordStates
    if ← hasItem false then recordContent state
    else failUnplaced (.wrongLength 1 recordExpected)
  else failUnplaced (.wrongLength 0 recordExpected)

/-- A whole record. -/
def storedRecord : Reader Record := placed do
  match ← skipBlanks with
  | none => failAhead .endInValue
  | some g =>
    if g = .char '[' then enclosed recordItems closeList
    else if g = .char '\x7b' then enclosed recordMembers closeObject
    else wrongTypeHere recordExpected

end Json.Reader

/-- Reads the text of a record. -/
def Record.read (text : String) : Except Json.Fault Record := Json.Reader.storedRecord.readText text

end Turnstile
