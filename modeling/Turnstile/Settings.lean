import Turnstile.Policy.Rule
import Turnstile.Guard
import Turnstile.Address
import Turnstile.Decimal.Reading

/-!
The settings of the service, and what makes them unusable.

The policy for all routes comes from the settings. Payments are idempotent with keys that the server issues,
unless a rule of the routes file says otherwise.
-/

namespace Turnstile

/-- All that a service is set up with. -/
structure Settings where
  /-- The address to listen at. -/
  address : Endpoint
  /-- Where the shared store is; blank for the store inside the process. -/
  redisUrl : String
  logLevel : String
  /-- How long the record of an idempotency key is kept. -/
  recordLife : Span
  /-- How long a lock is held at most. -/
  lockLife : Span
  /-- The longest time that a request is held back. -/
  maxDelay : Span
  threshold : Binary64
  capacity : UInt32
  refill : UInt32
  period : Span
  onOutage : OutagePolicy
  /-- A file of route rules. -/
  routesFile : Option String
  /-- Clients are told apart by forwarding headers. -/
  trustHeaders : Bool
  /-- The interval between sweeps of the store inside the process. -/
  sweepInterval : Span

namespace Settings

/-- The settings that hold where nothing else is said. -/
def usual : Settings where
  address := ⟨.v4 127 0 0 1, 3000, 0⟩
  redisUrl := ""
  logLevel := "info"
  recordLife := .ofSeconds 86400
  lockLife := .ofSeconds 30
  maxDelay := .ofSeconds 1
  threshold := .nearest false 7 10
  capacity := 200
  refill := 200
  period := .ofSeconds 60
  onOutage := .usual
  routesFile := none
  trustHeaders := false
  sweepInterval := .ofSeconds 60

/-- Whether the store is a shared one. -/
def usesRedis (s : Settings) : Bool := !(Text.trim s.redisUrl).isEmpty

/-- The policy for routes without one of their own. -/
def policy (s : Settings) : Policy where
  limit := ⟨s.capacity, s.refill, s.period⟩
  cost := 1
  threshold := s.threshold
  origin := none

/-- The rule for payments. -/
def paymentsRule : RouteRule := { RouteRule.plain "/api/payments" "POST" with origin := some .server }

/-- Reads the text of a file, or says why it can not be read. -/
abbrev Files := String → Except String String

/-- The rules of the routes file, if there is one. -/
def fileRules (s : Settings) (files : Files) : Except Refusal (List RouteRule) :=
  match s.routesFile with
  | none => .ok []
  | some path =>
    match files path with
    | .error why => .error (.failed (.misconfigured ("Cannot read " ++ path ++ ": " ++ why)))
    | .ok text => (RouteRules.read text).map (·.routes)

/-- The policies of all routes. A rule of the file replaces the rule for payments. -/
def policies (s : Settings) (files : Files) : Except Refusal Policies := do
  let rules ← s.fileRules files
  (Policies.ofRules s.policy ⟨paymentsRule :: rules⟩).mapError Policies.Fault.refusal

/-- What is wrong with a single setting. -/
inductive Fault where
  | redisUrl
  | threshold (value : Binary64)
  | noTime (name : String)
  deriving DecidableEq, Repr

def Fault.message : Fault → String
  | .redisUrl => "Redis URL must start with 'redis://' or 'rediss://'"
  | .threshold value => "Throttle threshold must be in (0, 1], got " ++ Decimal.plain value
  | .noTime name => name ++ " must be greater than 0"

/-- An address is blank or has a scheme of Redis. -/
def redisUrlFault? (url : String) : Option Fault :=
  let url := Text.trim url
  if url.isEmpty || url.startsWith "redis://" || url.startsWith "rediss://" then none else some .redisUrl

/-- A threshold is a share of the capacity. -/
def thresholdFault? (x : Binary64) : Option Fault := if isShare x then none else some (.threshold x)

/-- A lifetime or interval is longer than nothing. -/
def spanFault? (name : String) (s : Span) : Option Fault := if s.isZero then some (.noTime name) else none

/-- The first thing that is wrong with a single setting. -/
def fault? (s : Settings) : Option Fault :=
  (redisUrlFault? s.redisUrl).or ((thresholdFault? s.threshold).or
    ((spanFault? "IDEMPOTENCY_TTL" s.recordLife).or ((spanFault? "LOCK_TTL" s.lockLife).or
      (spanFault? "STORE_SWEEP_INTERVAL" s.sweepInterval))))

/-- Accepts settings that a service can be run with. -/
def check (s : Settings) (files : Files) : Except Refusal Unit :=
  match s.fault? with
  | some fault => .error (.failed (.misconfigured fault.message))
  | none =>
    match s.policy.fault? with
    | some fault => .error (.failed (.misconfigured fault.message))
    | none => (s.policies files).map fun _ => ()

/-- The guard that the settings ask for. -/
def guard (s : Settings) : Guard where
  throttle := ⟨s.maxDelay, s.onOutage⟩
  registry := ⟨s.recordLife⟩
  lockLife := s.lockLife

end Settings

end Turnstile
