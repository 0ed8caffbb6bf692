import Turnstile.Policy.Rule

/-!
Payments: the sample operation behind the guard.
-/

namespace Turnstile

open Json (Value)

/-- A payment that is asked for. -/
structure PaymentRequest where
  amountCents : Nat
  currency : String
  reference : String
  deriving DecidableEq, Repr

namespace PaymentRequest

/-- What is wrong with the values of the request. -/
def issues (r : PaymentRequest) : List Issue :=
  Issue.ofLeast "amount_cents" 1 r.amountCents ++ Issue.ofExactLength "currency" 3 r.currency ++
    Issue.ofLength "reference" (some 1) (some 128) r.reference

/-- The fields that have been read so far. -/
structure Draft where
  amountCents : Option Nat
  currency : Option String
  reference : Option String

open Json Json.Reader in
def slots : List (Slot Draft) :=
  [needed "amount_cents" (·.amountCents) (fun d v => { d with amountCents := some v }) word64,
    needed "currency" (·.currency) (fun d v => { d with currency := some v }) text,
    needed "reference" (·.reference) (fun d v => { d with reference := some v }) text]

def reader : Json.Reader PaymentRequest := do
  let d ← Json.Reader.record "PaymentRequest" slots ⟨none, none, none⟩
  return ⟨d.amountCents.getD 0, d.currency.getD "", d.reference.getD ""⟩

/-- The accepted payment: its name, the currency in capitals, and seconds of the wall clock. -/
def accepted (r : PaymentRequest) (name : String) (now : Nat) : Value :=
  .object [("payment_id", .text name), ("amount_cents", .ofNat r.amountCents),
    ("currency", .text (String.ofList (r.currency.toList.map Char.toUpper))), ("reference", .text r.reference),
    ("status", .text "accepted"), ("created_at", .ofNat now)]

end PaymentRequest

end Turnstile
