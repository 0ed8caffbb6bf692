import Turnstile.Binary64
import Turnstile.Time

/-!
A limit on a stream of requests: a bucket of `capacity` tokens that gains `refill` tokens every `period`.

`Limit.fault?` says what makes a limit unusable. The two spans computed here are both whole numbers of
periods: how long an untouched bucket is worth keeping, and how long until a cost can be met.
-/

namespace Turnstile

/-- The greatest 32-bit count. -/
def maxCount : Nat := word32Limit - 1

/-- The numbers that token counts are computed with. -/
class TokenNumber (α : Type) where
  ofNat : Nat → α
  add : α → α → α
  sub : α → α → α
  mul : α → α → α
  div : α → α → α
  /-- The lesser of the two. -/
  least : α → α → α
  atMost : α → α → Bool
  /-- Whole part, held within `0` and the given bound. -/
  floorWithin : Nat → α → Nat
  /-- Rounded up to a whole number, held within `0` and the given bound. -/
  ceilWithin : Nat → α → Nat

instance : TokenNumber Binary64 where
  ofNat := Binary64.ofNat
  add := Binary64.add
  sub := Binary64.sub
  mul := Binary64.mul
  div := Binary64.div
  least := Binary64.least
  atMost := Binary64.le
  floorWithin := Binary64.floorWithin
  ceilWithin := Binary64.ceilWithin

/-- Seconds with a fraction. -/
def secondsNumber {α : Type} [TokenNumber α] (nanos : Nat) : α :=
  TokenNumber.add (TokenNumber.ofNat (nanos / nanosPerSecond))
    (TokenNumber.div (TokenNumber.ofNat (nanos % nanosPerSecond)) (TokenNumber.ofNat nanosPerSecond))

/-- A limit: `refill` tokens a `period`, and a burst of at most `capacity`. -/
structure Limit where
  /-- Most tokens the bucket holds. -/
  capacity : UInt32
  /-- Tokens gained in a period. -/
  refill : UInt32
  period : Span
  deriving DecidableEq, Repr, Inhabited

namespace Limit

/-- What makes a limit unusable. -/
inductive Fault where
  | noCapacity
  | noRefill
  | noPeriod
  deriving DecidableEq, Repr

def Fault.message : Fault → String
  | .noCapacity => "Bucket capacity must be greater than 0"
  | .noRefill => "Refill tokens must be greater than 0"
  | .noPeriod => "Refill period must be greater than 0"

/-- The first thing that makes the limit unusable. -/
def fault? (l : Limit) : Option Fault :=
  if l.capacity = 0 then some .noCapacity
  else if l.refill = 0 then some .noRefill
  else if l.period.isZero then some .noPeriod
  else none

/-- Tokens per second in the long run. -/
def rate (l : Limit) : Binary64 :=
  Binary64.div (.ofNat l.refill.toNat) (secondsNumber l.period.nanos)

/-- Periods in which an empty bucket fills up. Without a refill that is never, counted as the greatest
    count, unless there is nothing to fill. -/
def fillPeriods (l : Limit) : Nat :=
  if l.refill = 0 then (if l.capacity = 0 then 0 else maxCount)
  else (l.capacity.toNat + l.refill.toNat - 1) / l.refill.toNat

/-- How long an untouched bucket is kept: until it is surely full, and one period more. -/
def keep (l : Limit) : Except Breakdown Span :=
  match l.period.times? (min (l.fillPeriods + 1) maxCount) with
  | some span => .ok span
  | none => .error .spanOutOfRange

/-- How long until a bucket with `tokens` can meet `cost`: the missing tokens, counted in whole refills. -/
def waitFor {α : Type} [TokenNumber α] (l : Limit) (tokens : α) (cost : UInt32) : Except Breakdown Span :=
  let missing := TokenNumber.sub (TokenNumber.ofNat cost.toNat) tokens
  if TokenNumber.atMost missing (TokenNumber.ofNat 0) then .ok .zero
  else
    let refills := TokenNumber.ceilWithin maxCount (TokenNumber.div missing (TokenNumber.ofNat l.refill.toNat))
    match l.period.times? refills with
    | some span => .ok span
    | none => .error .spanOutOfRange

end Limit

end Turnstile
