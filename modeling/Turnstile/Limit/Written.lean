import Turnstile.Json.Shape
import Turnstile.Limit
import Turnstile.Time.Written

/-!
Limits as JSON. The period is a written span.
-/

namespace Turnstile

namespace Json.Reader

/-- A written span. -/
def span : Reader Span :=
  stringAs "a duration" fun s =>
    match Span.read s with
    | .ok span => .ok span
    | .error (.broke why) => .error (.broke why)
    | .error _ => .error (.wrongValue (.text s) "a duration")

end Json.Reader

namespace Limit

def value (l : Limit) : Json.Value :=
  .object [("capacity", .ofNat l.capacity.toNat), ("refill_tokens", .ofNat l.refill.toNat),
    ("refill_period", .text l.period.written)]

/-- The parts that have been read so far. -/
structure Draft where
  capacity : Option UInt32
  refill : Option UInt32
  period : Option Span

open Json Json.Reader in
/-- The fields in the order of a limit's array form. -/
def slots : List (Slot Draft) :=
  [needed "capacity" (·.capacity) (fun d v => { d with capacity := some v }) word32,
    needed "refill_tokens" (·.refill) (fun d v => { d with refill := some v }) word32,
    needed "refill_period" (·.period) (fun d v => { d with period := some v }) span]

def reader : Json.Reader Limit := do
  let d ← Json.Reader.record "BucketSpec" slots ⟨none, none, none⟩
  return ⟨d.capacity.getD 0, d.refill.getD 0, d.period.getD .zero⟩

end Limit

end Turnstile
