import Turnstile.Program
import Turnstile.Table

/-!
The store that lives inside the process.

Every entry has a moment at which it expires; from then on it counts as absent. An access to a key removes an
expired entry there, and once in an interval an access removes all expired entries, so that keys which nobody
asks for again do not pile up. A store that broke down during a change can not be trusted any more: it refuses
every later call.
-/

namespace Turnstile

/-- What is kept at a key. -/
inductive Content (α : Type) where
  | text (s : String)
  | bucket (b : Bucket α)
  deriving Repr

/-- A content and the moment from which it counts as absent. -/
structure Entry (α : Type) where
  content : Content α
  expires : Moment
  deriving Repr

namespace Entry

variable {α : Type}

/-- Whether an entry has not expired. -/
def isLive (e : Entry α) (now : Moment) : Bool := decide (now < e.expires)

end Entry

/-- A store with its sweeping schedule. -/
structure Store (α : Type) where
  entries : Table String (Entry α)
  nextSweep : Moment
  sweepInterval : Span
  /-- It broke down during a change. -/
  isBroken : Bool

namespace Store

variable {α : Type}

/-- The interval between sweeps that holds unless another is set. -/
def usualSweepInterval : Span := .ofSeconds 60

/-- A moment later by a span, or a breakdown. -/
def later (m : Moment) (s : Span) : Except Breakdown Moment :=
  match m.after? s with
  | some m => .ok m
  | none => .error .momentOutOfRange

/-- An empty store that sweeps once in the given interval. -/
def empty (now : Moment) (sweepInterval : Span) : Except Breakdown (Store α) := do
  return { entries := .empty, nextSweep := ← later now sweepInterval, sweepInterval, isBroken := false }

/-- The failure of every call of a broken store. -/
def refusal : Failure := .internal "Failed to acquire store lock"

/-- How many entries are live. -/
def size (s : Store α) (now : Moment) : Nat :=
  if s.isBroken then 0 else s.entries.count (·.isLive now)

/-- The store without its expired entries. -/
def swept (s : Store α) (now : Moment) : Store α := { s with entries := s.entries.keep (·.isLive now) }

/-- The live entry at a key. -/
def live? (s : Store α) (now : Moment) (key : String) : Option (Entry α) :=
  (s.entries.find? key).filter (·.isLive now)

/-- What an access to a key does first: a sweep if it is due, else the removal of an expired entry there. -/
def settled (s : Store α) (now : Moment) (key : String) : Except Breakdown (Store α) :=
  if s.nextSweep ≤ now then do return { s.swept now with nextSweep := ← later now s.sweepInterval }
  else
    match s.entries.find? key with
    | some e => .ok (if e.isLive now then s else { s with entries := s.entries.erase key })
    | none => .ok s

/-- The text at a key. -/
def textAt? (s : Store α) (key : String) : Option String :=
  match s.entries.find? key with
  | some ⟨.text value, _⟩ => some value
  | _ => none

/-- Puts an entry at a key. -/
def put (s : Store α) (key : String) (e : Entry α) : Store α := { s with entries := s.entries.insert key e }

/-- Puts a text at a key, to expire after its life. -/
def putText (s : Store α) (now : Moment) (key value : String) (life : Span) : Except Breakdown (Store α) := do
  return s.put key ⟨.text value, ← later now life⟩

/-- Removes the entry at a key. -/
def remove (s : Store α) (key : String) : Store α := { s with entries := s.entries.erase key }

/-- The bucket at a key, or a full one. -/
def bucketAt [TokenNumber α] (s : Store α) (now : Moment) (key : String) (limit : Limit) : Bucket α :=
  match s.entries.find? key with
  | some ⟨.bucket b, _⟩ => b
  | _ => .full limit now

/-- Asks a bucket for tokens and keeps what is left for as long as the limit says. -/
def takeTokens [TokenNumber α] (s : Store α) (now : Moment) (key : String) (limit : Limit) (cost : UInt32) :
    Except Breakdown (Store α × Grant) := do
  let (bucket, grant) := (s.bucketAt now key limit).take limit cost now
  let grant ← grant
  return (s.put key ⟨.bucket bucket, ← later now (← limit.keep)⟩, grant)

/-- What a call does to a settled store, and its answer. -/
def answer [TokenNumber α] (s : Store α) (now : Moment) : (c : Call) → Except Breakdown (Store α × c.Reply)
  | .get key => .ok (s, s.textAt? key)
  | .set key value life => do return (← s.putText now key value life, ())
  | .setIfAbsent key value life =>
    if (s.entries.find? key).isSome then .ok (s, false)
    else do return (← s.putText now key value life, true)
  | .compareAndSet key expected value life =>
    if s.textAt? key = some expected then do return (← s.putText now key value life, true)
    else .ok (s, false)
  | .delete key => .ok (s.remove key, (s.entries.find? key).isSome)
  | .deleteIfEquals key expected =>
    if s.textAt? key = some expected then .ok (s.remove key, true) else .ok (s, false)
  | .take key limit cost => s.takeTokens now key limit cost
  | .ping => .ok (s, "PONG")

/-- Changes a store that is not broken. A breakdown during the change breaks the store. -/
def change {ρ : Type} (s : Store α) (f : Store α → Except Breakdown (Store α × ρ)) :
    Store α × Except Breakdown (Except Failure ρ) :=
  if s.isBroken then (s, .ok (.error refusal))
  else
    match f s with
    | .ok (s, reply) => (s, .ok (.ok reply))
    | .error why => ({ s with isBroken := true }, .error why)

/-- Answers a call. Nothing is looked up for a ping. -/
def perform [TokenNumber α] (s : Store α) (now : Moment) (c : Call) :
    Store α × Except Breakdown (Except Failure c.Reply) :=
  match c with
  | .ping => (s, .ok (.ok "PONG"))
  | c => s.change fun s => do (← s.settled now (c.key?.getD "")).answer now c

/-- Removes every expired entry now and answers how many there were. -/
def purge (s : Store α) (now : Moment) : Store α × Except Breakdown (Except Failure Nat) :=
  s.change fun s => do
    let swept := s.swept now
    return ({ swept with nextSweep := ← later now s.sweepInterval }, s.entries.size - swept.entries.size)

end Store

end Turnstile
