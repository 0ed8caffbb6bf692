import Turnstile.Address
import Turnstile.Http.Header
import Turnstile.Text.Quoted

/-!
Who a request comes from.

Forwarding headers can be written by anyone, so they count only where a proxy in front overwrites them.
Otherwise the address at the other end of the connection decides.
-/

namespace Turnstile

open Http (Headers)

/-- The text before the first comma. -/
def beforeComma (s : String) : String := String.ofList (s.toList.takeWhile (· != ','))

/-- A text with its blanks trimmed, unless nothing is left. -/
def nonBlank? (s : String) : Option String :=
  let t := Text.trim s
  if t.isEmpty then none else some t

/-- The client that the forwarding headers name: the first hop, or else the real address. -/
def forwardedClient? (headers : Headers) : Option String :=
  let firstHop? := do nonBlank? (beforeComma (← Http.valueText? (← headers.get? "x-forwarded-for")))
  match firstHop? with
  | some client => some client
  | none => do nonBlank? (← Http.valueText? (← headers.get? "x-real-ip"))

/-- The client's name: from the headers if they are trusted, else the peer's address without its port. -/
def clientName (headers : Headers) (peer : Option Endpoint) (trustHeaders : Bool) : String :=
  let peerName := (peer.map fun e => e.address.text).getD "unknown"
  if trustHeaders then (forwardedClient? headers).getD peerName else peerName

end Turnstile
