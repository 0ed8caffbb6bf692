import Turnstile.Client
import Turnstile.Health
import Turnstile.Http.Route
import Turnstile.Payment
import Turnstile.Settings
import Turnstile.Tally

/-!
The service: what it answers to a request.

Requests for payments and for idempotency keys go through the guard, requests about limits, health and counts
do not. A guarded request is counted by its route and the way it ended. Besides its response, an answer tells
what is to be counted; the counts themselves are kept by whoever runs the service.
-/

namespace Turnstile

open Json (Value)
open Http (Request Response Route Site Cover Handling)

/-- A service: its guard, the policies of its routes, and how it tells clients apart. -/
structure Service where
  guard : Guard
  policies : Policies
  /-- Clients are told apart by forwarding headers. -/
  trustHeaders : Bool
  /-- What the store is. -/
  backend : String

/-- What a service sees of the wall clock, in seconds, and of its own past. -/
structure View where
  now : Nat
  uptime : Nat
  tally : Tally

namespace Service

/-- The service that settings ask for. -/
def ofSettings (s : Settings) (files : Settings.Files) (backend : String) : Except Refusal Service := do
  return ⟨s.guard, ← s.policies files, s.trustHeaders, backend⟩

/-- What a service can be asked to do. -/
inductive Action where
  | pay
  | issueKey
  | showKey
  | evictKey
  | showLimit
  | health
  | readiness
  | counts
  /-- The wrapped operation. -/
  | wrapped
  deriving DecidableEq, Repr

/-- What every service does for a method: shared with pages from elsewhere, and guarded or not. -/
def own (method : String) (action : Action) (isGuarded : Bool) : Handling Action :=
  ⟨method, action, ⟨isGuarded, true⟩⟩

/-- What a wrapped operation does for a method: guarded, and not shared. -/
def wrapping (method : String) : Handling Action := ⟨method, .wrapped, ⟨true, false⟩⟩

/-- The site that every service has. -/
def site : Site Action where
  routes :=
    [.single "/api/payments" (own "POST" .pay true), .single "/api/idempotency-keys" (own "POST" .issueKey true),
      (Route.single "/api/idempotency-keys/:key" (own "GET" .showKey true)).adding (own "DELETE" .evictKey true),
      .single "/api/rate-limit" (own "GET" .showLimit false), .single "/health" (own "GET" .health false),
      .single "/ready" (own "GET" .readiness false), .single "/metrics" (own "GET" .counts false)]
  sharesUnknown := true

/-- A program that answers a request, around an operation that does. -/
abbrev Answer := Attempt Response Response

/-- The way to the part of a JSON body that is at fault. -/
def trailText (trail : List Json.Segment) : String :=
  let step (first : Bool) : Json.Segment → String
    | .member name => if first then name else "." ++ name
    | .item index => s!"[{index}]"
  match trail with
  | [] => ""
  | head :: rest => String.join (step true head :: rest.map (step false)) ++ ": "

/-- The largest body of a request that is read. -/
def maxRequestBody : Nat := 2 * 1024 * 1024

/-- The payment that a request asks for, or the response that refuses it. -/
def paymentOf (r : Request) : Except Response PaymentRequest :=
  if !r.hasJson then .error (.ofText 415 "Expected request with `Content-Type: application/json`")
  else if maxRequestBody < r.body.size then
    .error (.ofText 413 "Failed to buffer the request body: length limit exceeded")
  else
    match PaymentRequest.reader.readFront (Text.Glyph.ofOctets r.body.data.toList) with
    | .ok payment => .ok payment
    | .error (trail, fault) =>
      let why := trailText trail ++ fault.message
      if fault.cause.isMeaning then
        .error (.ofText 422 ("Failed to deserialize the JSON body into the target type: " ++ why))
      else .error (.ofText 400 ("Failed to parse the request body as JSON: " ++ why))

/-- Accepts a payment. -/
def pay (view : View) (r : Request) : Answer :=
  match paymentOf r with
  | .error response => return response
  | .ok payment =>
    match payment.issues with
    | [] => do return .ofJson 201 (payment.accepted (← Attempt.freshName) view.now)
    | issues => return .ofJson 422 (Failure.report "validation_error" (Issue.summary issues) 422)

/-- The state of a key. -/
def keyState (key : String) : Record → Value
  | .pending => .object [("key", .text key), ("state", .text "pending")]
  | .resolved result => .object [("key", .text key), ("state", .text "resolved"), ("value", result)]

/-- Goes on with the key in the path, if it is text. -/
def withKey (values : List (String × String)) (f : String → Answer) : Answer :=
  match values.head? with
  | none => return .bare 500
  | some (name, value) =>
    match Text.ofOctets? (Http.Target.unescaped (Http.octetsOf value)) with
    | some key => f key
    | none => return .ofText 400 ("Invalid URL: Invalid UTF-8 in `" ++ name ++ "`")

/-- Issues a new key. -/
def issueKey (s : Service) : Answer := do
  let key ← s.guard.registry.generate
  return .ofJson 201 (.object [("key", .text key), ("expires_in_secs", .ofNat s.guard.registry.life.seconds)])

/-- Tells the state of a key: accepted as long as it is pending. -/
def showKey (s : Service) (key : String) : Answer := do
  let record ← s.guard.registry.lookup key
  return .ofJson (if record.isResolved then 200 else 202) (keyState key record)

/-- Removes the record of a key. -/
def evictKey (s : Service) (key : String) : Answer := do
  if ← s.guard.registry.evict key then return .bare 204 else throw (.unknownKey key)

/-- The limit of a client for a route, as it stands. -/
structure LimitStatus where
  bucket : BucketKey
  limit : Nat
  remaining : Nat
  threshold : Binary64
  /-- The next request would be throttled. -/
  throttled : Bool
  deriving DecidableEq, Repr

def LimitStatus.value (l : LimitStatus) : Value :=
  .object [("bucket", .text l.bucket.text), ("limit", .ofNat l.limit), ("remaining", .ofNat l.remaining),
    ("throttle_threshold", .real l.threshold), ("throttled", .bool l.throttled)]

/-- Looks at the limit of a client for a route, without taking anything. -/
def limitStatus {ω : Type} (s : Service) (client path method : String) : Attempt ω LimitStatus := do
  let policy := s.policies.resolve path method
  let bucket := BucketKey.of client path method
  let remaining ← Throttle.remaining bucket policy.limit
  return {
    bucket
    limit := policy.limit.capacity.toNat
    remaining
    threshold := policy.threshold
    throttled := Throttle.isScarce (remaining - policy.cost.toNat) policy.limit.capacity policy.threshold }

/-- The route that a query about limits names: a path, and a method that is `GET` if it is left out. Neither
    may be there twice; other parameters do not matter. -/
def queriedRoute (parameters : List (String × String)) : Except String (String × String) := do
  let note (seen : Option String × Option String) (parameter : String × String) :
      Except String (Option String × Option String) :=
    let twice : Except String (Option String × Option String) := .error ("duplicate field `" ++ parameter.1 ++ "`")
    match parameter.1, seen with
    | "path", (none, method) => .ok (some parameter.2, method)
    | "path", _ => twice
    | "method", (path, none) => .ok (path, some parameter.2)
    | "method", _ => twice
    | _, seen => .ok seen
  match ← parameters.foldlM note (none, none) with
  | (some path, method) => return (path, method.getD "GET")
  | (none, _) => throw "missing field `path`"

/-- Tells how the limit of the client stands for the route that the query names. -/
def showLimit (s : Service) (r : Request) : Answer :=
  match queriedRoute r.target.parameters with
  | .error why => return .ofText 400 ("Failed to deserialize query string: " ++ why)
  | .ok (path, method) => do
    let client := clientName r.headers r.peer s.trustHeaders
    return .ofJson 200 (← s.limitStatus client path method).value

/-- Reports on the health of the service. -/
def showHealth (s : Service) (view : View) : Answer := do
  let store ← StoreHealth.check s.backend
  return .ofJson (if store.isHealthy then 200 else 503) (Health.ofStore view.now view.uptime store).value

/-- Tells whether the service can take requests. -/
def showReadiness (s : Service) : Answer := do
  let store ← StoreHealth.check s.backend
  let word := if store.isHealthy then "ready" else "not_ready"
  return .ofJson (if store.isHealthy then 200 else 503)
    (.object [("status", .text word), ("store", .text store.backend)])

/-- What is done for an action. -/
def act (s : Service) (view : View) (r : Request) (values : List (String × String)) : Action → Answer
  | .pay => pay view r
  | .issueKey => s.issueKey
  | .showKey => withKey values s.showKey
  | .evictKey => withKey values s.evictKey
  | .showLimit => s.showLimit r
  | .health => s.showHealth view
  | .readiness => s.showReadiness
  | .counts => return .ofJson 200 (view.tally.value view.now)
  | .wrapped => Attempt.wrapped

/-- The response to an action, also where it fails. -/
def responding (a : Answer) : Program Response Response := do
  match ← a.run with
  | .ok response => return response
  | .error failure => return failure.respond

/-- Marks the response to an admitted request. -/
def withAdmission (r : Response) (a : Admission) : Response :=
  let r := r.withHeader "x-ratelimit-limit" (toString a.limit)
  let r := r.withHeader "x-ratelimit-remaining" (toString a.remaining)
  let r := r.withHeader "x-throttled" (if a.throttled then "true" else "false")
  if a.degraded then r.withHeader "x-ratelimit-degraded" "true" else r

/-- The response to a guarded request. -/
def guardedResponse : Except Failure (Guarded Recording) → Response
  | .ok g =>
    let response := withAdmission g.result.respond g.admission
    if g.replayed then response.withHeader "idempotent-replayed" "true" else response
  | .error failure => failure.respond

/-- The call that a request on a guarded route makes. The key is what the header says, as far as it is text;
    octets that are not show as a character that no key may have. -/
def invocation (s : Service) (pattern : String) (r : Request) : Invocation where
  bucket := .of (clientName r.headers r.peer s.trustHeaders) pattern r.method
  policy := s.policies.resolve pattern r.method
  key := (r.headers.get? "idempotency-key").map Text.lossy

/-- Records the response of an operation. A response without success is a failure. -/
def recorded (operation : Program Response Response) : Attempt Response Recording := do
  match Recording.capture (← ExceptT.lift operation) with
  | .ok recording => return recording
  | .error recording => throw (.unsuccessful recording)

/-- Puts the guard in front of an operation. Tells what is to be counted. -/
def guarded (s : Service) (pattern : String) (r : Request) (operation : Program Response Response) :
    Program Response (Response × Option (String × Ending)) := do
  let result ← (s.guard.run .recording (s.invocation pattern r) (recorded operation)).run
  return (guardedResponse result, some (r.method ++ " " ++ pattern, Ending.of result))

/-- Tells the methods of a route, unless the response already does. -/
def withMethods (response : Response) (route : Route Action) : Response :=
  if (response.headers.get? "allow").isSome then response else response.withHeader "allow" route.allowed

/-- Answers a request, and tells what is to be counted. -/
def answer (s : Service) (site : Site Action) (view : View) (r : Request) :
    Program Response (Response × Option (String × Ending)) := do
  let asksOptions := r.method = "OPTIONS"
  match site.find? r.target.path with
  | none => return (.bare (if asksOptions ∧ site.sharesUnknown then 200 else 404), none)
  | some (route, values) =>
    let handling? := route.handling? r.method
    let cover := (handling?.map (·.cover)).getD route.otherwise
    let finish (response : Response) : Response :=
      if handling?.isNone then withMethods response route else response.answering r.method
    if asksOptions ∧ cover.isShared then return (finish (.bare 200), none)
    else
      let operation : Program Response Response :=
        match handling? with
        | some handling => responding (s.act view r values handling.action)
        | none => return .bare 405
      if cover.isGuarded then
        let (response, count) ← s.guarded route.pattern r operation
        return (finish response, count)
      else return (finish (← operation), none)

end Service

end Turnstile
