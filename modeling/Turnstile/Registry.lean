import Turnstile.Program
import Turnstile.Record

/-!
The registry of idempotency keys.

A key is issued once, as a pending record. The record is replaced by a result at most once, by a call that
expects the placeholder; from then on the result stands until the record expires or is evicted.
-/

namespace Turnstile

open Json (Value)

/-- What became of a result. -/
inductive Resolution where
  /-- It is the one that stands now. -/
  | stored
  /-- Another one was there first. -/
  | alreadyResolved (result : Value)

/-- A registry whose records are kept for as long as `life` after each change. -/
structure Registry where
  life : Span

namespace Registry

variable {ω : Type}

/-- Creates a pending record unless there is a record; answers whether it did. -/
def issue (g : Registry) (key : String) : Attempt ω Bool :=
  Attempt.ask (.setIfAbsent (recordKey key) Record.placeholder g.life)

/-- Issues a key that nobody else has. -/
def generate (g : Registry) : Attempt ω String := do
  let key ← Attempt.freshName
  if ← g.issue key then return key
  else throw (.internal ("Generated idempotency key " ++ key ++ " already exists"))

/-- Reads the text of a record, if there is one. -/
def readRecord : Option String → Except Failure (Option Record)
  | none => .ok none
  | some text =>
    match Record.read text with
    | .ok record => .ok (some record)
    | .error fault => .error (.ofJson fault)

/-- The record of a key. -/
def find? (_ : Registry) (key : String) : Attempt ω (Option Record) := do
  let text : Option String ← Attempt.ask (.get (recordKey key))
  Attempt.ofResult (readRecord text)

/-- Refuses a key that breaks the rules. -/
def checkKey (key : String) : Attempt ω Unit :=
  match keyFault? key with
  | some fault => throw fault.failure
  | none => return

/-- The record of a key that a client presents. -/
def lookup (g : Registry) (key : String) : Attempt ω Record := do
  checkKey key
  match ← g.find? key with
  | some record => return record
  | none => throw (.unknownKey key)

/-- Puts a result in place of the placeholder. A result that is there already stands. If the record is gone,
    the result is written unless somebody made a new record in the meantime. -/
def resolve (g : Registry) (key : String) (result : Value) : Attempt ω Resolution := do
  let text := (Record.resolved result).text
  if ← Attempt.ask (.compareAndSet (recordKey key) Record.placeholder text g.life) then return .stored
  else
    match ← g.find? key with
    | some (.resolved other) => return .alreadyResolved other
    | some .pending => throw (.internal ("Placeholder for idempotency key " ++ key ++ " changed during resolve"))
    | none =>
      if ← Attempt.ask (.setIfAbsent (recordKey key) text g.life) then return .stored
      else
        match ← g.find? key with
        | some (.resolved other) => return .alreadyResolved other
        | _ => throw (.internal ("Lost race resolving idempotency key " ++ key))

/-- Removes the record of a key; answers whether there was one. -/
def evict (_ : Registry) (key : String) : Attempt ω Bool := do
  checkKey key
  Attempt.ask (.delete (recordKey key))

end Registry

end Turnstile
