import Turnstile.Whole

/-!
Spans of time and moments on a clock, both in whole nanoseconds.

A span is bounded: its whole seconds fit in 64 bits. Sums and products that leave the bound do not wrap;
they have no value, and the caller says what breaks. A breakdown ends an operation without an answer, as opposed to a
refusal, which is one.
-/

namespace Turnstile

/-- A number, a span or a moment that leaves its range, a clock that broke before, or the wrapped
    operation's own breakdown. -/
inductive Breakdown where
  | spanOutOfRange
  /-- A second made up of parts of a second, on top of all the seconds there can be. -/
  | carryOutOfRange
  | momentOutOfRange
  | countOutOfRange
  | clockBroken
  | raised (text : String)
  deriving DecidableEq, Repr

/-- What is told about a breakdown. -/
def Breakdown.message : Breakdown → String
  | .spanOutOfRange => "overflow when multiplying duration by scalar"
  | .carryOutOfRange => "overflow in Duration::new"
  | .momentOutOfRange => "overflow when adding duration to instant"
  | .countOutOfRange => "attempt to add with overflow"
  | .clockBroken => "MockClock mutex poisoned: PoisonError \x7b .. \x7d"
  | .raised text => text

/-- Nanoseconds in a second. -/
def nanosPerSecond : Nat := 1000000000

/-- One past the greatest count of whole seconds in a span. -/
def spanSecondsLimit : Nat := word64Limit

/-- A length of time. -/
structure Span where
  nanos : Nat
  bounded : nanos < spanSecondsLimit * nanosPerSecond
  deriving DecidableEq

namespace Span

/-- The bound of spans leaves room for the span of nothing, which is what makes `zero` a span. -/
theorem limit_pos : 0 < spanSecondsLimit * nanosPerSecond := by decide

def zero : Span := ⟨0, limit_pos⟩

instance : Inhabited Span := ⟨zero⟩

instance : Repr Span := ⟨fun s _ => repr s.nanos⟩

/-- The span of that many nanoseconds, if it is within the bound. -/
def ofNanos? (nanos : Nat) : Option Span :=
  if h : nanos < spanSecondsLimit * nanosPerSecond then some ⟨nanos, h⟩ else none

/-- The span of that many nanoseconds, held within the bound. -/
def ofNanosWithin (nanos : Nat) : Span :=
  ⟨min nanos (spanSecondsLimit * nanosPerSecond - 1), by have := limit_pos; omega⟩

def ofSeconds (seconds : UInt64) : Span :=
  ⟨seconds.toNat * nanosPerSecond, by
    have := seconds.toNat_lt
    unfold spanSecondsLimit word64Limit nanosPerSecond
    omega⟩

/-- Whole seconds and the nanoseconds left over. -/
def seconds (s : Span) : Nat := s.nanos / nanosPerSecond

def subsecond (s : Span) : Nat := s.nanos % nanosPerSecond

def isZero (s : Span) : Bool := s.nanos = 0

/-- Whole milliseconds. -/
def millis (s : Span) : Nat := s.nanos / 1000000

/-- The span taken `count` times, if it is within the bound. -/
def times? (s : Span) (count : Nat) : Option Span := ofNanos? (s.nanos * count)

/-- The shorter of two spans. -/
def least (a b : Span) : Span := if b.nanos < a.nanos then b else a

instance : LE Span := ⟨fun a b => a.nanos ≤ b.nanos⟩

end Span

/-- A moment: nanoseconds since the clock's origin. -/
structure Moment where
  nanos : Nat
  deriving DecidableEq, Repr, Inhabited

namespace Moment

/-- One past the greatest count of whole seconds a clock can show. -/
def secondsLimit : Nat := signedLimit

instance : LE Moment := ⟨fun a b => a.nanos ≤ b.nanos⟩

instance : LT Moment := ⟨fun a b => a.nanos < b.nanos⟩

instance (a b : Moment) : Decidable (a ≤ b) := inferInstanceAs (Decidable (a.nanos ≤ b.nanos))

instance (a b : Moment) : Decidable (a < b) := inferInstanceAs (Decidable (a.nanos < b.nanos))

/-- The moment a span later, if a clock can show it. -/
def after? (m : Moment) (s : Span) : Option Moment :=
  if m.nanos + s.nanos < secondsLimit * nanosPerSecond then some ⟨m.nanos + s.nanos⟩ else none

/-- Nanoseconds from an earlier moment to a later one; nothing when the clock went back. -/
def since (later earlier : Moment) : Nat := later.nanos - earlier.nanos

end Moment

end Turnstile
