import Turnstile.Time
import Turnstile.Recording
import Turnstile.Key

/-!
Why a guarded call or an operation on the store gives no result.

Each failure has a kind for programs, a message for people, and a status for the response that reports it.
-/

namespace Turnstile

/-- A failure, by its cause. -/
inductive Failure where
  | missingKey
  | unknownKey (key : String)
  | invalidKey (why : String)
  | inProgress (key : String)
  | rateLimited (retryAfterSeconds : Nat)
  | misconfigured (why : String)
  | storeUnavailable (why : String)
  | unreadable (why : String)
  /-- The wrapped operation answered without success; its answer goes to the caller and is never kept. -/
  | unsuccessful (answer : Recording)
  | internal (why : String)

namespace Failure

/-- The word for programs. -/
def kind : Failure → String
  | .missingKey => "missing_idempotency_key"
  | .unknownKey _ => "unknown_idempotency_key"
  | .invalidKey _ => "invalid_idempotency_key"
  | .inProgress _ => "operation_in_progress"
  | .rateLimited _ => "rate_limit_exceeded"
  | .misconfigured _ => "configuration_error"
  | .storeUnavailable _ => "service_unavailable"
  | .unreadable _ => "serialization_error"
  | .unsuccessful _ => "handler_error"
  | .internal _ => "internal_error"

/-- The sentence for people. -/
def message : Failure → String
  | .missingKey => "Missing Idempotency-Key header"
  | .unknownKey key => "Unknown or expired idempotency key: " ++ key
  | .invalidKey why => "Invalid idempotency key: " ++ why
  | .inProgress key => "Operation for idempotency key " ++ key ++ " is already in progress"
  | .rateLimited seconds => s!"Too many requests, retry after {seconds} seconds"
  | .misconfigured why => "Configuration error: " ++ why
  | .storeUnavailable why => "Shared store unavailable: " ++ why
  | .unreadable why => "Serialization error: " ++ why
  | .unsuccessful answer => s!"Handler failed with status {answer.status.toNat}"
  | .internal why => "Internal error: " ++ why

/-- The status of the response that reports the failure. -/
def status : Failure → Nat
  | .missingKey | .invalidKey _ => 400
  | .unknownKey _ => 404
  | .inProgress _ => 409
  | .rateLimited _ => 429
  | .storeUnavailable _ => 503
  | .unsuccessful answer => if Http.isStatus answer.status.toNat then answer.status.toNat else 500
  | .misconfigured _ | .unreadable _ | .internal _ => 500

/-- The body of a response that reports an error. -/
def report (kind message : String) (status : Nat) : Json.Value :=
  .object [("error", .text kind), ("message", .text message), ("code", .ofNat status)]

/-- The response that reports the failure. -/
def respond : Failure → Http.Response
  | .unsuccessful answer => answer.respond
  | f =>
    let response := Http.Response.ofJson f.status (report f.kind f.message f.status)
    match f with
    | .rateLimited seconds => response.withHeader "retry-after" (toString seconds)
    | _ => response

/-- A fault of JSON as a failure. -/
def ofJson (fault : Json.Fault) : Failure := .unreadable fault.message

end Failure

/-- Why something that is set up from texts does not come about. -/
inductive Refusal where
  | failed (failure : Failure)
  | broke (why : Breakdown)

/-- A fault of JSON as a refusal; `fail` makes a failure of what is told about it. -/
def Refusal.ofJson (fail : String → Failure) (fault : Json.Fault) : Refusal :=
  match fault.cause with
  | .broke why => .broke why
  | _ => .failed (fail fault.message)

/-- The failure for what is wrong with a presented key. -/
def KeyFault.failure : KeyFault → Failure
  | .missing => .missingKey
  | .tooLong => .invalidKey s!"key must be at most {maxKeyLength} characters"
  | .forbidden => .invalidKey "key may only contain printable ASCII characters without whitespace"

end Turnstile
