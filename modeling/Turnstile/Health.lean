import Turnstile.Program
import Turnstile.Json.Shape

/-!
Reports on the health of the service and of the store that it depends on.
-/

namespace Turnstile

open Json (Value)

/-- The state of the store: its backend, a word for its state, the time that an answer took, and what went
    wrong. -/
structure StoreHealth where
  backend : String
  status : String
  responseMillis : Nat
  fault : Option String
  deriving DecidableEq, Repr

namespace StoreHealth

def healthyWord : String := "healthy"

def isHealthy (h : StoreHealth) : Bool := h.status == healthyWord

/-- The state that the answer to a ping shows. -/
def ofPing (backend : String) : Except Failure String → StoreHealth
  | .ok _ => ⟨backend, healthyWord, 0, none⟩
  | .error failure => ⟨backend, "unavailable", 0, some failure.message⟩

/-- Asks the store whether it is there. -/
def check {ω : Type} (backend : String) : Attempt ω StoreHealth := do
  return ofPing backend (← Attempt.probe .ping)

def value (h : StoreHealth) : Value :=
  .object [("backend", .text h.backend), ("status", .text h.status), ("response_time_ms", .ofNat h.responseMillis),
    ("error", .ofOption .text h.fault)]

/-- The parts that have been read so far. -/
structure Draft where
  backend : Option String
  status : Option String
  responseMillis : Option Nat
  fault : Option (Option String)

open Json Json.Reader in
def slots : List (Slot Draft) :=
  [needed "backend" (·.backend) (fun d v => { d with backend := some v }) text,
    needed "status" (·.status) (fun d v => { d with status := some v }) text,
    needed "response_time_ms" (·.responseMillis) (fun d v => { d with responseMillis := some v }) word64,
    nullable "error" (·.fault) (fun d v => { d with fault := some v }) text]

def reader : Json.Reader StoreHealth := do
  let d ← Json.Reader.record "ServiceStatus" slots ⟨none, none, none, none⟩
  return ⟨d.backend.getD "", d.status.getD "", d.responseMillis.getD 0, d.fault.join⟩

end StoreHealth

/-- A report on the service. -/
structure Health where
  status : String
  /-- Seconds of the wall clock. -/
  time : Nat
  version : String
  uptimeSeconds : Nat
  store : StoreHealth
  deriving DecidableEq, Repr

namespace Health

/-- The version of the service. -/
def currentVersion : String := "0.1.0"

/-- The service is as healthy as its store. -/
def ofStore (now uptimeSeconds : Nat) (store : StoreHealth) : Health where
  status := if store.isHealthy then "healthy" else "unhealthy"
  time := now
  version := currentVersion
  uptimeSeconds := uptimeSeconds
  store := store

def value (h : Health) : Value :=
  .object [("status", .text h.status), ("timestamp", .ofNat h.time), ("version", .text h.version),
    ("uptime_seconds", .ofNat h.uptimeSeconds), ("dependencies", .object [("store", h.store.value)])]

/-- The parts that have been read so far. -/
structure Draft where
  status : Option String
  time : Option Nat
  version : Option String
  uptimeSeconds : Option Nat
  store : Option StoreHealth

open Json Json.Reader in
/-- The dependencies: the store alone. -/
def dependencies : Json.Reader StoreHealth := do
  let store ← record "DependencyStatus" [needed "store" id (fun _ v => some v) StoreHealth.reader] none
  return store.getD ⟨"", "", 0, none⟩

open Json Json.Reader in
def slots : List (Slot Draft) :=
  [needed "status" (·.status) (fun d v => { d with status := some v }) text,
    needed "timestamp" (·.time) (fun d v => { d with time := some v }) word64,
    needed "version" (·.version) (fun d v => { d with version := some v }) text,
    needed "uptime_seconds" (·.uptimeSeconds) (fun d v => { d with uptimeSeconds := some v }) word64,
    needed "dependencies" (·.store) (fun d v => { d with store := some v }) dependencies]

def reader : Json.Reader Health := do
  let d ← Json.Reader.record "HealthStatus" slots ⟨none, none, none, none, none⟩
  let store := d.store.getD ⟨"", "", 0, none⟩
  return ⟨d.status.getD "", d.time.getD 0, d.version.getD "", d.uptimeSeconds.getD 0, store⟩

def read (text : String) : Except Json.Fault Health := reader.readText text

end Health

end Turnstile
