import Turnstile.Policy
import Turnstile.Program

/-!
The decision whether a request may go on.

A request that its bucket covers is admitted. If few tokens are left it is marked as throttled, and if none
are left it is held back for a while. A request that is not covered is refused and told when to come again.
-/

namespace Turnstile

/-- What is done with requests while the store can not be reached. -/
inductive OutagePolicy where
  /-- Requests go on without a limit. -/
  | openly
  /-- Requests are refused. -/
  | closed
  deriving DecidableEq, Repr

namespace OutagePolicy

def name : OutagePolicy → String
  | .openly => "open"
  | .closed => "closed"

def names : List String := [openly.name, closed.name]

/-- The policy that holds unless another is set. -/
def usual : OutagePolicy := .closed

/-- Reads a policy: blanks around it and the case of its letters do not matter. -/
def read (text : String) : Except String OutagePolicy :=
  let name := String.ofList ((Text.trimChars text.toList).map Char.toLower)
  if name = openly.name then .ok .openly
  else if name = closed.name then .ok .closed
  else .error ("Invalid limiter failure policy '" ++ name ++ "', expected 'open' or 'closed'")

/-- Reads a policy in JSON, where its name is written as it is. -/
def reader : Json.Reader OutagePolicy := do
  return if (← Json.Reader.variant names) = openly.name then .openly else .closed

end OutagePolicy

/-- How a request was admitted. -/
structure Admission where
  /-- The capacity of the bucket. -/
  limit : Nat
  /-- Whole tokens left. -/
  remaining : Nat
  /-- Few tokens are left. -/
  throttled : Bool
  /-- How long the request was held back. -/
  delay : Span
  /-- Admitted without a look at the bucket. -/
  degraded : Bool
  deriving DecidableEq, Repr

/-- The rules of admission that hold for all routes. -/
structure Throttle where
  /-- The longest time a request is held back. -/
  maxDelay : Span
  onOutage : OutagePolicy

namespace Throttle

variable {ω : Type}

/-- Whether what is left is less than the threshold's share of the capacity. -/
def isScarce (remaining : Nat) (capacity : UInt32) (threshold : Binary64) : Bool :=
  (Binary64.ofNat remaining).lt (threshold.mul (.ofNat capacity.toNat))

/-- Whole seconds to wait: rounded up, and never none. -/
def retryAfter (wait : Span) : Except Breakdown Nat :=
  let seconds := wait.seconds + if 0 < wait.subsecond then 1 else 0
  if seconds < spanSecondsLimit then .ok (max 1 seconds) else .error .countOutOfRange

/-- Asks the bucket for tokens, if the limit is usable. -/
def consume (key : BucketKey) (limit : Limit) (cost : UInt32) : Attempt ω Grant :=
  match limit.fault? with
  | some fault => throw (.misconfigured fault.message)
  | none => Attempt.ask (.take key.text limit cost)

/-- Whole tokens left in the bucket. Looking takes none. -/
def remaining (key : BucketKey) (limit : Limit) : Attempt ω Nat := do
  return (← consume key limit 0).remaining

/-- Drops the bucket, so that the next request finds a full one. -/
def reset (key : BucketKey) : Attempt ω Bool := Attempt.ask (.delete key.text)

/-- An admission that no bucket was asked for. -/
def unlimited (capacity : UInt32) : Admission where
  limit := capacity.toNat
  remaining := capacity.toNat
  throttled := false
  delay := .zero
  degraded := true

/-- The admission of a request that its bucket covered. -/
def admission (t : Throttle) (p : Policy) (g : Grant) : Admission :=
  let throttled := isScarce g.remaining p.limit.capacity p.threshold
  { limit := p.limit.capacity.toNat
    remaining := g.remaining
    throttled
    delay := if throttled && g.remaining = 0 then g.wait.least t.maxDelay else .zero
    degraded := false }

/-- Whether a failure of the store lets requests through. -/
def letsThrough (t : Throttle) : Failure → Bool
  | .storeUnavailable _ => t.onOutage = .openly
  | _ => false

/-- Takes the request's cost from its bucket and decides. -/
def pass (t : Throttle) (key : BucketKey) (p : Policy) : Attempt ω Admission := do
  let capacity := p.limit.capacity
  if capacity < p.cost then
    throw (.misconfigured
      s!"Request cost {p.cost.toNat} exceeds bucket capacity {capacity.toNat} and can never be admitted")
  else
    match ← (consume key p.limit p.cost).caught with
    | .error failure => if t.letsThrough failure then return unlimited capacity else throw failure
    | .ok grant =>
      if grant.granted then return t.admission p grant
      else throw (.rateLimited (← Attempt.ofBreakdown (retryAfter grant.wait)))

end Throttle

end Turnstile
