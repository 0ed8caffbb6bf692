import Turnstile.Http.Header
import Turnstile.Json.Value

/-!
Responses.
-/

namespace Turnstile.Http

/-- A body that can be read to its end, or one that breaks off after some octets. -/
inductive Body where
  | whole (octets : ByteArray)
  | broken (octets : ByteArray)

namespace Body

def empty : Body := .whole .empty

instance : Inhabited Body := ⟨empty⟩

def ofText (s : String) : Body := .whole s.toUTF8

/-- The octets of a body of at most `limit` octets that can be read to its end. -/
def octets? (limit : Nat) : Body → Option ByteArray
  | .whole octets => if octets.size ≤ limit then some octets else none
  | .broken _ => none

end Body

/-- A response: status, header fields, body. -/
structure Response where
  status : Nat
  headers : Headers
  body : Body
  deriving Inhabited

/-- Status codes that a response can carry. -/
def isStatus (status : Nat) : Bool := 100 ≤ status && status < 1000

/-- Status codes of success. -/
def isSuccess (status : Nat) : Bool := 200 ≤ status && status < 300

namespace Response

/-- A response with nothing in it. -/
def bare (status : Nat) : Response := ⟨status, .empty, .empty⟩

def ofText (status : Nat) (s : String) : Response :=
  ⟨status, Headers.empty.set "content-type" "text/plain; charset=utf-8", .ofText s⟩

def ofJson (status : Nat) (v : Json.Value) : Response :=
  ⟨status, Headers.empty.set "content-type" "application/json", .ofText v.render⟩

/-- Sets the only header field of that name. -/
def withHeader (r : Response) (name value : String) : Response :=
  { r with headers := r.headers.set name value }

/-- The response as it answers a request with that method: an answer to `HEAD` has no body. -/
def answering (r : Response) (method : String) : Response :=
  if method = "HEAD" then { r with body := .empty } else r

end Response

end Turnstile.Http
