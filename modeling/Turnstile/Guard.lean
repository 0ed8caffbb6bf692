import Turnstile.Admission
import Turnstile.Registry
import Turnstile.Lock
import Turnstile.Recording

/-!
One guarded call.

A call is admitted first. On an idempotent route it then looks its key up, takes the key's lock, looks the key
up again, runs the operation and resolves the key with the result. A later call with the same key gets that
result and the operation does not run again. The lock is given back on every way out. An operation that fails
leaves its key pending, so that it can be tried again.
-/

namespace Turnstile

open Json (Value)

/-- How results are kept: as JSON values. -/
structure Codec (τ : Type) where
  encode : τ → Except Json.Cause Value
  decode : Value → Except Json.Cause τ

/-- A call: its bucket, what protects it, and the key it presents. -/
structure Invocation where
  bucket : BucketKey
  policy : Policy
  key : Option String

/-- A result and how it came about. -/
structure Guarded (τ : Type) where
  result : τ
  /-- It is the result of an earlier run. -/
  replayed : Bool
  admission : Admission

/-- What stands in front of an operation: rules of admission, the registry of keys, and locks. -/
structure Guard where
  throttle : Throttle
  registry : Registry
  /-- How long a lock is held at most. -/
  lockLife : Span

namespace Guard

variable {ω τ : Type}

/-- A fault of meaning as a failure. -/
def unreadable (cause : Json.Cause) : Failure := .unreadable cause.message

/-- The result out of the value that was kept. -/
def decoded (c : Codec τ) (v : Value) : Attempt ω τ := Attempt.ofResult ((c.decode v).mapError unreadable)

/-- What a key without a record means: one more new key, or a key that was never issued. -/
def firstSight (g : Guard) (key : String) : KeyOrigin → Attempt ω Unit
  | .client => do let _ ← g.registry.issue key
  | .server => throw (.unknownKey key)

/-- The result that is kept for a key, if there is one. A key without a record is handled by its origin. -/
def kept (g : Guard) (key : String) (origin : KeyOrigin) : Attempt ω (Option Value) := do
  match ← g.registry.find? key with
  | some (.resolved result) => return some result
  | some .pending => return none
  | none =>
    g.firstSight key origin
    return none

/-- What is done under the lock: a last look, the operation, and the resolution. Tells whether the result is
    one that was kept. -/
def locked (g : Guard) (c : Codec τ) (key : String) (origin : KeyOrigin) (operation : Attempt ω τ) :
    Attempt ω (τ × Bool) := do
  match ← g.kept key origin with
  | some result => return (← decoded c result, true)
  | none =>
    let result ← operation
    let value ← Attempt.ofResult ((c.encode result).mapError unreadable)
    match ← g.registry.resolve key value with
    | .stored => return (result, false)
    | .alreadyResolved other => return (← decoded c other, true)

/-- An admitted call on an idempotent route. -/
def once (g : Guard) (c : Codec τ) (key : String) (origin : KeyOrigin) (operation : Attempt ω τ) :
    Attempt ω (τ × Bool) := do
  match ← g.kept key origin with
  | some result => return (← decoded c result, true)
  | none =>
    match ← Lease.acquire key g.lockLife with
    | none => throw (.inProgress key)
    | some lease =>
      let outcome ← ((g.locked c key origin operation).holding lease).caught
      lease.release
      Attempt.ofResult outcome

/-- Runs a call: `operation` at most once for each key. -/
def run (g : Guard) (c : Codec τ) (i : Invocation) (operation : Attempt ω τ) : Attempt ω (Guarded τ) := do
  let admission ← g.throttle.pass i.bucket i.policy
  match i.policy.origin with
  | none => return ⟨← operation, false, admission⟩
  | some origin =>
    match i.key with
    | none => throw .missingKey
    | some key =>
      Registry.checkKey key
      let (result, replayed) ← g.once c key origin operation
      return ⟨result, replayed, admission⟩

end Guard

/-- Values are kept as they are. -/
def Codec.any : Codec Value where
  encode v := .ok v.sorted
  decode := .ok

/-- Whole numbers of 64 bits. -/
def Codec.count : Codec Nat where
  encode n := .ok (.ofNat n)
  decode
    | .integer n => Json.Reader.wholeBelow word64Limit "u64" (.integer n)
    | v => .error (.wrongType v.found "u64")

/-- Texts. -/
def Codec.text : Codec String where
  encode s := .ok (.text s)
  decode := Recording.textOf

/-- Recordings in their cached form. -/
def Codec.recording : Codec Recording where
  encode r := .ok r.cached.sorted
  decode := Recording.ofValue

end Turnstile
