import Turnstile.Program

/-!
Locks on idempotency keys.

A lock is a record with a short life that holds the token of its holder. Nobody waits for a lock. A lease is
given back only while the lock still carries its token, so that a holder whose lock has expired can not take
the lock of a successor away.
-/

namespace Turnstile

namespace Lease

variable {ω : Type}

/-- Tries once to take the lock of a key. A store that fails counts as a lock that is held. -/
def acquire (key : String) (life : Span) : Attempt ω (Option Lease) := do
  let token ← Attempt.freshName
  match ← Attempt.probe (.setIfAbsent (lockKey key) token life) with
  | .ok true => return some ⟨key, token⟩
  | _ => return none

/-- The call that gives a lease back. -/
def giveBack (l : Lease) : Call := .deleteIfEquals (lockKey l.key) l.token

/-- Gives a lease back. A failure leaves the lock to expire. -/
def release (l : Lease) : Attempt ω Unit := do
  let _ ← Attempt.probe l.giveBack

end Lease

/-- Removes the lock of a key whoever holds it. -/
def breakLock {ω : Type} (key : String) : Attempt ω Unit := do
  let _ : Bool ← Attempt.ask (.delete (lockKey key))

end Turnstile
