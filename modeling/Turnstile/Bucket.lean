import Turnstile.Limit

/-!
A token bucket, refilled only when it is looked at.

The count of tokens may be fractional, so that a part of a period still counts. Time that went back counts
as no time at all.
-/

namespace Turnstile

/-- The result of asking for tokens. -/
structure Grant where
  granted : Bool
  /-- Whole tokens left. -/
  remaining : Nat
  /-- Nanoseconds until the same cost can be met again, in 64 bits. -/
  waitNanos : Nat
  deriving DecidableEq, Repr, Inhabited

/-- The greatest 64-bit count. -/
def maxLongCount : Nat := word64Limit - 1

/-- Nanoseconds in 64 bits are within the bound of spans, since that bound counts seconds in 64 bits. So a wait is a
span whatever the division left of it. -/
theorem Grant.wait_bounded (n : Nat) : n % word64Limit < spanSecondsLimit * nanosPerSecond := by
  unfold spanSecondsLimit word64Limit nanosPerSecond; omega

/-- The wait as a span. -/
def Grant.wait (g : Grant) : Span := ⟨g.waitNanos % word64Limit, Grant.wait_bounded _⟩

/-- Tokens on hand, as of a moment. -/
structure Bucket (α : Type) where
  tokens : α
  asOf : Moment
  deriving DecidableEq, Repr

namespace Bucket

variable {α : Type} [TokenNumber α]

/-- A bucket that holds as much as its limit allows. -/
def full (l : Limit) (now : Moment) : Bucket α := ⟨TokenNumber.ofNat l.capacity.toNat, now⟩

/-- Adds what the time since the last look has brought, never above the capacity. -/
def refill (b : Bucket α) (l : Limit) (now : Moment) : Bucket α :=
  let elapsed := now.since b.asOf
  if elapsed = 0 then b
  else
    let gained : α := TokenNumber.mul (TokenNumber.div (secondsNumber elapsed) (secondsNumber l.period.nanos))
      (TokenNumber.ofNat l.refill.toNat)
    ⟨TokenNumber.least (TokenNumber.add b.tokens gained) (TokenNumber.ofNat l.capacity.toNat), now⟩

/-- Whether the tokens on hand meet the cost. -/
def covers (b : Bucket α) (cost : UInt32) : Bool :=
  TokenNumber.atMost (TokenNumber.ofNat cost.toNat) b.tokens

/-- Removes the cost if it can be met. -/
def spend (b : Bucket α) (cost : UInt32) : Bucket α :=
  if b.covers cost then { b with tokens := TokenNumber.sub b.tokens (TokenNumber.ofNat cost.toNat) } else b

/-- What is reported after a cost was asked for. -/
def report (b : Bucket α) (l : Limit) (cost : UInt32) (granted : Bool) : Except Breakdown Grant :=
  match l.waitFor b.tokens cost with
  | .error e => .error e
  | .ok wait =>
    .ok { granted, remaining := TokenNumber.floorWithin maxLongCount b.tokens, waitNanos := wait.nanos % word64Limit }

/-- Refills, then asks for `cost` tokens. A cost of zero is a look at what is left. The bucket has changed
    even where the report breaks down. -/
def take (b : Bucket α) (l : Limit) (cost : UInt32) (now : Moment) : Bucket α × Except Breakdown Grant :=
  let refilled := b.refill l now
  let spent := refilled.spend cost
  (spent, spent.report l cost (refilled.covers cost))

end Bucket

end Turnstile
