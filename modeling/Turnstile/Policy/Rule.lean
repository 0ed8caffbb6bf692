import Turnstile.Policy
import Turnstile.Limit.Written
import Turnstile.Failure

/-!
Route rules as they are written in a file: overrides of the policy for all other routes.

A rule is read, then checked on its own, then completed from the base policy and checked again as a policy.
-/

namespace Turnstile

open Json (Value)

/-- A field that breaks a rule about its own value: where, which rule, and the rule's parameters. -/
structure Issue where
  field : String
  code : String
  params : List (String × Value)

namespace Issue

def text (i : Issue) : String := i.field ++ ": " ++ i.code

/-- Issues in the order of their fields. -/
def inOrder (issues : List Issue) : List Issue :=
  issues.mergeSort fun a b => a.field < b.field || (a.field == b.field && decide (a.code ≤ b.code))

def summary (issues : List Issue) : String := String.intercalate "; " ((inOrder issues).map text)

/-- A whole number below its least value. -/
def ofLeast (field : String) (least value : Nat) : List Issue :=
  if value < least then [⟨field, "range", [("min", .ofNat least), ("value", .ofNat value)]⟩] else []

/-- A text that is too short or too long, counted in characters. -/
def ofLength (field : String) (least : Option Nat) (most : Option Nat) (value : String) : List Issue :=
  let params := (most.map fun n => ("max", Value.ofNat n)).toList ++
    (least.map fun n => ("min", Value.ofNat n)).toList ++ [("value", .text value)]
  if least.any (value.length < ·) || most.any (· < value.length) then [⟨field, "length", params⟩] else []

/-- A text whose length is not the one that it must have, counted in characters. -/
def ofExactLength (field : String) (length : Nat) (value : String) : List Issue :=
  if value.length = length then [] else [⟨field, "length", [("equal", .ofNat length), ("value", .text value)]⟩]

end Issue

/-- A rule as it is written: a route, and what it overrides. -/
structure RouteRule where
  path : String
  method : String
  capacity : Option UInt32
  refill : Option UInt32
  period : Option Span
  cost : Option UInt32
  threshold : Option Binary64
  origin : Option KeyOrigin

namespace RouteRule

/-- The rule that overrides nothing. -/
def plain (path method : String) : RouteRule := ⟨path, method, none, none, none, none, none, none⟩

/-- The least threshold that a rule may set. -/
def leastThreshold : Binary64 := .nearest false 1 100

def thresholdIssues (field : String) (x : Binary64) : List Issue :=
  if x.lt leastThreshold || Binary64.lt 1 x then
    [⟨field, "range", [("max", .real 1), ("min", .real leastThreshold), ("value", .real x)]⟩]
  else []

/-- What is wrong with the rule's own values. -/
def issues (place : String) (r : RouteRule) : List Issue :=
  let least (name : String) (n : Option UInt32) : List Issue :=
    (n.map fun n => Issue.ofLeast (place ++ name) 1 n.toNat).getD []
  Issue.ofLength (place ++ "path") (some 1) none r.path ++
    Issue.ofLength (place ++ "method") (some 1) none r.method ++
    least "capacity" r.capacity ++ least "refill_tokens" r.refill ++ least "cost" r.cost ++
    (r.threshold.map (thresholdIssues (place ++ "throttle_threshold"))).getD []

/-- The rule completed from a base policy. -/
def complete (r : RouteRule) (base : Policy) : Policy where
  limit :=
    { capacity := r.capacity.getD base.limit.capacity
      refill := r.refill.getD base.limit.refill
      period := r.period.getD base.limit.period }
  cost := r.cost.getD base.cost
  threshold := r.threshold.getD base.threshold
  origin := r.origin.or base.origin

def value (r : RouteRule) : Value :=
  let count (n : UInt32) : Value := .ofNat n.toNat
  .object [("path", .text r.path), ("method", .text r.method), ("capacity", .ofOption count r.capacity),
    ("refill_tokens", .ofOption count r.refill), ("refill_period", .ofOption (fun s => .text s.written) r.period),
    ("cost", .ofOption count r.cost), ("throttle_threshold", .ofOption .real r.threshold),
    ("idempotency", .ofOption (fun o => .text o.name) r.origin)]

/-- The fields of a rule that have been read so far. -/
structure Draft where
  path : Option String
  method : Option String
  capacity : Option (Option UInt32)
  refill : Option (Option UInt32)
  period : Option (Option Span)
  cost : Option (Option UInt32)
  threshold : Option (Option Binary64)
  origin : Option (Option KeyOrigin)

def Draft.empty : Draft := ⟨none, none, none, none, none, none, none, none⟩

def Draft.finish (d : Draft) : RouteRule where
  path := d.path.getD ""
  method := d.method.getD ""
  capacity := d.capacity.join
  refill := d.refill.join
  period := d.period.join
  cost := d.cost.join
  threshold := d.threshold.join
  origin := d.origin.join

end RouteRule

namespace Json.Reader

def keyOrigin : Reader KeyOrigin := do
  return if (← variant KeyOrigin.names) = KeyOrigin.client.name then .client else .server

end Json.Reader

namespace RouteRule

open Json Json.Reader in
/-- The fields in the order of a rule's array form. -/
def slots : List (Slot Draft) :=
  [needed "path" (·.path) (fun d v => { d with path := some v }) text,
    needed "method" (·.method) (fun d v => { d with method := some v }) text,
    nullable "capacity" (·.capacity) (fun d v => { d with capacity := some v }) word32,
    nullable "refill_tokens" (·.refill) (fun d v => { d with refill := some v }) word32,
    defaulted "refill_period" (·.period) (fun d v => { d with period := some v }) none (optional span),
    nullable "cost" (·.cost) (fun d v => { d with cost := some v }) word32,
    nullable "throttle_threshold" (·.threshold) (fun d v => { d with threshold := some v }) real,
    defaulted "idempotency" (·.origin) (fun d v => { d with origin := some v }) none (optional keyOrigin)]

def reader : Json.Reader RouteRule := return (← Json.Reader.record "RouteRule" slots Draft.empty).finish

end RouteRule

/-- The rules of a file, in order. -/
structure RouteRules where
  routes : List RouteRule

namespace RouteRules

open Json.Reader in
def reader : Json.Reader RouteRules := do
  let routes ← record "RouteRules"
    [defaulted "routes" id (fun _ v => some v) [] (list RouteRule.reader)] (none : Option (List RouteRule))
  return ⟨routes.getD []⟩

def value (r : RouteRules) : Value := .object [("routes", .array (r.routes.map RouteRule.value))]

/-- What is wrong with the values of the rules. -/
def issues (r : RouteRules) : List Issue :=
  r.routes.zipIdx.flatMap fun (rule, i) => rule.issues s!"routes[{i}]."

/-- Reads and checks the rules of a file. -/
def read (text : String) : Except Refusal RouteRules :=
  match reader.readText text with
  | .error fault => .error (.ofJson (fun why => .misconfigured ("Invalid routes file: " ++ why)) fault)
  | .ok rules =>
    match rules.issues with
    | [] => .ok rules
    | issues => .error (.failed (.misconfigured ("Invalid route rule: " ++ Issue.summary issues)))

end RouteRules

namespace Policies

/-- Adds rules in order, each completed from the base policy; a later rule for a route replaces an earlier
    one. -/
def insertRules (t : Policies) : List RouteRule → Except Fault Policies
  | [] => .ok t
  | r :: rest =>
    match t.insert r.path r.method (r.complete t.otherwise) with
    | .ok t => t.insertRules rest
    | .error fault => .error fault

/-- The table of a base policy and rules. -/
def ofRules (otherwise : Policy) (rules : RouteRules) : Except Fault Policies :=
  match new otherwise with
  | .ok t => t.insertRules rules.routes
  | .error fault => .error fault

/-- A fault in the policies as a failure. -/
def Fault.failure (f : Fault) : Failure := .misconfigured f.message

/-- A fault in the policies as a refusal. -/
def Fault.refusal (f : Fault) : Refusal := .failed f.failure

end Policies

end Turnstile
