import Turnstile.Http.Response
import Turnstile.Json.Shape
import Turnstile.Text.Base64

/-!
Responses in the form that is kept for replays.

A recording holds status, header fields as text, and the body. What travels to the store is its cached form,
where the body is Base64 text; a body over `maxCachedBody` is left out there and the recording says so.
`Recording.normal` is what a recording becomes by one trip through the cached form.
-/

namespace Turnstile

open Http (Headers Field Response Body)

/-- The largest body that the cached form carries. -/
def maxCachedBody : Nat := 2 * 1024 * 1024

/-- The largest body that is read at all. -/
def maxReadBody : Nat := 64 * 1024 * 1024

/-- Fields that belong to one connection, or to one way of sending a body. -/
def connectionFields : List String :=
  ["connection", "keep-alive", "proxy-authenticate", "proxy-authorization", "te", "trailer",
    "transfer-encoding", "upgrade", "content-length"]

/-- A response that is kept. -/
structure Recording where
  status : UInt16
  headers : List (String × String)
  body : ByteArray
  /-- The body could not be kept. -/
  bodyOmitted : Bool

namespace Recording

/-- The fields worth replaying: not those of the connection, and only text. -/
def replayable (headers : Headers) : List (String × String) :=
  headers.grouped.filterMap fun f =>
    if connectionFields.contains f.name then none else (Http.valueText? f.value).map (f.name, ·)

/-- Records a response. A body that cannot be read to its end is left out. -/
def ofResponse (r : Response) : Recording :=
  let headers := replayable r.headers
  match r.body.octets? maxReadBody with
  | some octets => ⟨.ofNat r.status, headers, octets, false⟩
  | none => ⟨.ofNat r.status, headers, .empty, true⟩

/-- Records a response of success; a response without success comes back as the error. -/
def capture (r : Response) : Except Recording Recording :=
  let recording := ofResponse r
  if Http.isSuccess r.status then .ok recording else .error recording

/-- Whether the cached form goes without the body. -/
def omits (r : Recording) : Bool := r.bodyOmitted || maxCachedBody < r.body.size

/-- The recording without a body that the cached form cannot carry. -/
def normal (r : Recording) : Recording :=
  if r.omits then { r with body := .empty, bodyOmitted := true } else r

/-- The body as Base64 text. -/
def bodyText (r : Recording) : String := Base64.encode r.body.data.toList

def headersValue (headers : List (String × String)) : Json.Value :=
  .array (headers.map fun h => .array [.text h.1, .text h.2])

/-- The cached form. -/
def cached (r : Recording) : Json.Value :=
  let n := r.normal
  .object [("status", .ofNat n.status.toNat), ("headers", headersValue n.headers),
    ("body", .text n.bodyText), ("body_omitted", .bool n.bodyOmitted)]

/-- A recording from the parts of a cached form. -/
def ofParts (status : Nat) (headers : List (String × String)) (body : String) (bodyOmitted : Bool) :
    Except Json.Cause Recording :=
  match Base64.decode (Http.octetsOf body) with
  | .ok octets => .ok ⟨.ofNat status, headers, ⟨octets.toArray⟩, bodyOmitted⟩
  | .error fault => .error (.unreadable ("invalid cached body: " ++ fault.message))

/-- The parts of a cached form that have been read so far. -/
structure Draft where
  status : Option Nat
  headers : Option (List (String × String))
  body : Option String
  bodyOmitted : Option Bool

def Draft.empty : Draft := ⟨none, none, none, none⟩

def Draft.finish (d : Draft) : Except Json.Cause Recording :=
  match d.status with
  | none => .error (.missingField "status")
  | some status => ofParts status (d.headers.getD []) (d.body.getD "") (d.bodyOmitted.getD false)

open Json Json.Reader in
/-- The fields of the cached form in the order of its array form. -/
def slots : List (Slot Draft) :=
  [needed "status" (·.status) (fun d v => { d with status := some v }) word16,
    defaulted "headers" (·.headers) (fun d v => { d with headers := some v }) [] (list textPair),
    defaulted "body" (·.body) (fun d v => { d with body := some v }) "" text,
    defaulted "body_omitted" (·.bodyOmitted) (fun d v => { d with bodyOmitted := some v }) false flag]

/-- Reads the text of a cached form. A body that is not Base64 is a fault without a place. -/
def read (text : String) : Except Json.Fault Recording :=
  let reader : Json.Reader Recording := do
    Json.Reader.judged (← Json.Reader.record "CachedResponse" slots Draft.empty).finish
  reader.readText text

/-- A whole number below `limit` out of a value. -/
def wholeOf (limit : Nat) (expected : String) : Json.Value → Except Json.Cause Nat
  | .integer n => Json.Reader.wholeBelow limit expected (.integer n)
  | v => .error (.wrongType v.found expected)

def textOf : Json.Value → Except Json.Cause String
  | .text s => .ok s
  | v => .error (.wrongType v.found "a string")

def flagOf : Json.Value → Except Json.Cause Bool
  | .bool b => .ok b
  | v => .error (.wrongType v.found "a boolean")

def textPairOf : Json.Value → Except Json.Cause (String × String)
  | .array [] => .error (.wrongLength 0 "a tuple of size 2")
  | .array [a] => do
    let _ ← textOf a
    .error (.wrongLength 1 "a tuple of size 2")
  | .array (a :: b :: rest) => do
    let a ← textOf a
    let b ← textOf b
    if rest.isEmpty then .ok (a, b) else .error (.wrongLength (2 + rest.length) "fewer elements in array")
  | v => .error (.wrongType v.found "a tuple of size 2")

def pairsOf : Json.Value → Except Json.Cause (List (String × String))
  | .array items => items.mapM textPairOf
  | v => .error (.wrongType v.found "a sequence")

/-- Takes in one member of a cached form; members it does not know do not matter. -/
def Draft.take (d : Draft) (name : String) (v : Json.Value) : Except Json.Cause Draft :=
  if name = "status" then return { d with status := some (← wholeOf word16Limit "u16" v) }
  else if name = "headers" then return { d with headers := some (← pairsOf v) }
  else if name = "body" then return { d with body := some (← textOf v) }
  else if name = "body_omitted" then return { d with bodyOmitted := some (← flagOf v) }
  else return d

/-- A recording out of a value in cached form. -/
def ofValue : Json.Value → Except Json.Cause Recording
  | .object members => do
    let draft ← members.foldlM (fun d m => d.take m.1 m.2) Draft.empty
    draft.finish
  | .array items => do
    let expected := "struct CachedResponse with 4 elements"
    match items with
    | [] => .error (.wrongLength 0 expected)
    | status :: rest =>
      let names := ["headers", "body", "body_omitted"]
      let draft ← (("status", status) :: names.zip rest).foldlM (fun d m => d.take m.1 m.2) Draft.empty
      if names.length < rest.length then .error (.wrongLength items.length "fewer elements in array")
      else draft.finish
  | v => .error (.wrongType v.found "struct CachedResponse")

/-- The response that a recording stands for. An unusable status counts as 200, and fields that may not
    stand in a header are left out. Without a body there is no type of it, but a field that says so. -/
def respond (r : Recording) : Response :=
  let status := if Http.isStatus r.status.toNat then r.status.toNat else 200
  let headers : Headers := ⟨r.headers.filterMap fun h => Field.ofText? h.1 h.2⟩
  let headers :=
    if r.bodyOmitted then (headers.remove "content-type").set "idempotent-body-omitted" "true" else headers
  ⟨status, headers, .whole r.body⟩

end Recording

end Turnstile
