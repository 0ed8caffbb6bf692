import Turnstile.Guard
import Turnstile.Table

/-!
Counts of guarded requests, by route and by the way they ended.

Each request adds one to the total of one route and one to the count of its ending. Marks of throttling and of
degradation are counted beside the endings.
-/

namespace Turnstile

open Json (Value)

/-- How a guarded request ended. -/
inductive Ending where
  | executed (throttled degraded : Bool)
  | replayed (throttled degraded : Bool)
  | rateLimited
  | conflict
  | failed
  deriving DecidableEq, Repr

/-- The ending that a result stands for. -/
def Ending.of {τ : Type} : Except Failure (Guarded τ) → Ending
  | .ok g =>
    if g.replayed then .replayed g.admission.throttled g.admission.degraded
    else .executed g.admission.throttled g.admission.degraded
  | .error (.rateLimited _) => .rateLimited
  | .error (.inProgress _) => .conflict
  | .error _ => .failed

/-- Counts of requests: the total, the endings, and the marks beside them. -/
structure Counts where
  total : Nat
  executed : Nat
  throttled : Nat
  rateLimited : Nat
  replayed : Nat
  conflicts : Nat
  failed : Nat
  degraded : Nat
  /-- Seconds of the wall clock when counting began. -/
  since : Nat
  deriving DecidableEq, Repr

namespace Counts

def zero (since : Nat) : Counts := ⟨0, 0, 0, 0, 0, 0, 0, 0, since⟩

/-- Adds the marks of an admission. -/
def mark (c : Counts) (throttled degraded : Bool) : Counts :=
  { c with throttled := c.throttled + throttled.toNat, degraded := c.degraded + degraded.toNat }

/-- Adds one request. -/
def add (c : Counts) (e : Ending) : Counts :=
  let c := { c with total := c.total + 1 }
  match e with
  | .executed throttled degraded => { c with executed := c.executed + 1 }.mark throttled degraded
  | .replayed throttled degraded => { c with replayed := c.replayed + 1 }.mark throttled degraded
  | .rateLimited => { c with rateLimited := c.rateLimited + 1 }
  | .conflict => { c with conflicts := c.conflicts + 1 }
  | .failed => { c with failed := c.failed + 1 }

/-- Both counts together, since the first one's beginning. -/
def plus (a b : Counts) : Counts where
  total := a.total + b.total
  executed := a.executed + b.executed
  throttled := a.throttled + b.throttled
  rateLimited := a.rateLimited + b.rateLimited
  replayed := a.replayed + b.replayed
  conflicts := a.conflicts + b.conflicts
  failed := a.failed + b.failed
  degraded := a.degraded + b.degraded
  since := a.since

/-- The counts with their names, in the order in which they are written. -/
def named (c : Counts) : List (String × Nat) :=
  [("total_requests", c.total), ("executed_requests", c.executed), ("throttled_requests", c.throttled),
    ("rate_limited_requests", c.rateLimited), ("replayed_requests", c.replayed), ("conflicts", c.conflicts),
    ("failed_requests", c.failed), ("degraded_requests", c.degraded), ("last_reset", c.since)]

/-- The counts as a JSON value. -/
def value (c : Counts) : Value := .object (c.named.map fun (name, n) => (name, .ofNat n))

/-- Counts that are being read. -/
structure Draft where
  total : Option Nat
  executed : Option Nat
  throttled : Option Nat
  rateLimited : Option Nat
  replayed : Option Nat
  conflicts : Option Nat
  failed : Option Nat
  degraded : Option Nat
  since : Option Nat

def Draft.empty : Draft := ⟨none, none, none, none, none, none, none, none, none⟩

def Draft.finish (d : Draft) : Counts where
  total := d.total.getD 0
  executed := d.executed.getD 0
  throttled := d.throttled.getD 0
  rateLimited := d.rateLimited.getD 0
  replayed := d.replayed.getD 0
  conflicts := d.conflicts.getD 0
  failed := d.failed.getD 0
  degraded := d.degraded.getD 0
  since := d.since.getD 0

open Json Json.Reader in
/-- The counts in the order of their array form. -/
def slots : List (Slot Draft) :=
  [needed "total_requests" (·.total) (fun d v => { d with total := some v }) word64,
    needed "executed_requests" (·.executed) (fun d v => { d with executed := some v }) word64,
    needed "throttled_requests" (·.throttled) (fun d v => { d with throttled := some v }) word64,
    needed "rate_limited_requests" (·.rateLimited) (fun d v => { d with rateLimited := some v }) word64,
    needed "replayed_requests" (·.replayed) (fun d v => { d with replayed := some v }) word64,
    needed "conflicts" (·.conflicts) (fun d v => { d with conflicts := some v }) word64,
    needed "failed_requests" (·.failed) (fun d v => { d with failed := some v }) word64,
    needed "degraded_requests" (·.degraded) (fun d v => { d with degraded := some v }) word64,
    needed "last_reset" (·.since) (fun d v => { d with since := some v }) word64]

def reader : Json.Reader Counts := return (← Json.Reader.record "RouteMetrics" slots Draft.empty).finish

def read (text : String) : Except Json.Fault Counts := reader.readText text

end Counts

/-- Counts by route. -/
structure Tally where
  routes : Table String Counts

namespace Tally

def empty : Tally := ⟨.empty⟩

/-- The counts of a route, if it was ever counted. -/
def route? (t : Tally) (route : String) : Option Counts := t.routes.find? route

/-- Counts one request. A route is counted from its first request on. -/
def record (t : Tally) (now : Nat) (route : String) (e : Ending) : Tally :=
  ⟨t.routes.insert route (((t.routes.find? route).getD (.zero now)).add e)⟩

/-- The counts of all routes together. -/
def all (t : Tally) (now : Nat) : Counts := (t.routes.pairs.map (·.2)).foldl Counts.plus (.zero now)

/-- All counts as a JSON value: together, and by route. -/
def value (t : Tally) (now : Nat) : Value :=
  Value.sorted (.object [("global", (t.all now).value),
    ("routes", .object (t.routes.pairs.map fun (route, c) => (route, c.value)))])

end Tally

end Turnstile
