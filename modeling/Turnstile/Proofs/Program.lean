import Turnstile.Program

/-!
What programs ask of a store.

A program stays within a set of calls if it makes no others, whatever it is answered, and does not break down by
itself. This is read off the program alone; there is one rule for each way of making an attempt.
-/

namespace Turnstile

variable {ω β γ : Type} {allowed : Call → Prop}

/-- It makes only calls that are allowed, and does not break down by itself. -/
def Program.StaysWithin (allowed : Call → Prop) : Program ω β → Prop
  | .done _ => True
  | .broken _ _ => False
  | .call _ c next => allowed c ∧ ∀ reply, (next reply).StaysWithin allowed
  | .fresh next => ∀ name, (next name).StaysWithin allowed
  | .work _ next => ∀ answer, (next answer).StaysWithin allowed

namespace Program

/-- Where more is allowed, a program stays within that too. No step of it depends on what else it might ask. -/
theorem StaysWithin.mono {allowed' : Call → Prop} {p : Program ω β} (within : p.StaysWithin allowed)
    (implies : ∀ c, allowed c → allowed' c) : p.StaysWithin allowed' := by
  induction p with
  | done b => trivial
  | broken held why => exact within
  | call held c next inductionHypothesis =>
    exact ⟨implies c within.1, fun reply => inductionHypothesis reply (within.2 reply)⟩
  | fresh next inductionHypothesis => exact fun name => inductionHypothesis name (within name)
  | work held next inductionHypothesis => exact fun answer => inductionHypothesis answer (within answer)

/-- A program that is followed by another stays within what both stay within, whatever result the first one hands on. -/
theorem StaysWithin.bind {p : Program ω β} {f : β → Program ω γ} (within : p.StaysWithin allowed)
    (rest : ∀ b, (f b).StaysWithin allowed) : (p >>= f).StaysWithin allowed := by
  induction p with
  | done b => exact rest b
  | broken held why => exact within
  | call held c next inductionHypothesis => exact ⟨within.1, fun reply => inductionHypothesis reply (within.2 reply)⟩
  | fresh next inductionHypothesis => exact fun name => inductionHypothesis name (within name)
  | work held next inductionHypothesis => exact fun answer => inductionHypothesis answer (within answer)

/-- To hold a lock meanwhile changes no call. Only the lock that is given back after a breakdown is noted with each
step. -/
theorem StaysWithin.holding {p : Program ω β} (within : p.StaysWithin allowed) (lease : Lease) :
    (p.holding lease).StaysWithin allowed := by
  induction p with
  | done b => exact within
  | broken held why => exact within
  | call held c next inductionHypothesis => exact ⟨within.1, fun reply => inductionHypothesis reply (within.2 reply)⟩
  | fresh next inductionHypothesis => exact fun name => inductionHypothesis name (within name)
  | work held next inductionHypothesis => exact fun answer => inductionHypothesis answer (within answer)

end Program

namespace Attempt

/-- An attempt that makes only calls that are allowed, and does not break down by itself. -/
def StaysWithin (allowed : Call → Prop) (p : Attempt ω β) : Prop := p.run.StaysWithin allowed

/-- Where more is allowed, an attempt stays within that too, as its program does. -/
theorem StaysWithin.mono {allowed' : Call → Prop} {p : Attempt ω β} (within : p.StaysWithin allowed)
    (implies : ∀ c, allowed c → allowed' c) : p.StaysWithin allowed' :=
  Program.StaysWithin.mono within implies

/-- To return a result asks for nothing. -/
theorem staysWithin_pure (b : β) : (pure b : Attempt ω β).StaysWithin allowed := trivial

/-- To fail asks for nothing. -/
theorem staysWithin_throw (why : Failure) : (throw why : Attempt ω β).StaysWithin allowed := trivial

/-- To pass on a result or a failure asks for nothing. -/
theorem staysWithin_ofResult (result : Except Failure β) :
    (ofResult result : Attempt ω β).StaysWithin allowed := trivial

/-- To ask is to make one call and to pass on its answer, so it is enough that the call is allowed. -/
theorem staysWithin_ask {c : Call} (allows : allowed c) : (ask c : Attempt ω c.Reply).StaysWithin allowed :=
  ⟨allows, fun _ => trivial⟩

/-- To ask and take a failure as an answer makes one call, too. -/
theorem staysWithin_probe {c : Call} (allows : allowed c) :
    (probe c : Attempt ω (Except Failure c.Reply)).StaysWithin allowed :=
  ⟨allows, fun _ => trivial⟩

/-- A program that cannot fail asks for as much when it is part of an attempt. -/
theorem staysWithin_lift {p : Program ω β} (within : p.StaysWithin allowed) :
    Attempt.StaysWithin allowed (ExceptT.lift p) :=
  Program.StaysWithin.bind within fun _ => trivial

/-- To make up a name asks nothing of the store. -/
theorem staysWithin_freshName : (freshName : Attempt ω String).StaysWithin allowed := fun _ => trivial

/-- To run the operation asks nothing of the store by itself. What the operation calls is not part of the attempt. -/
theorem staysWithin_work : (work : Attempt (Except Failure β) β).StaysWithin allowed := fun _ => trivial

/-- An attempt that is followed by another stays within what both stay within. After a failure the second one is not
made. -/
theorem StaysWithin.bind {p : Attempt ω β} {f : β → Attempt ω γ} (within : p.StaysWithin allowed)
    (rest : ∀ b, (f b).StaysWithin allowed) : (p >>= f).StaysWithin allowed := by
  refine Program.StaysWithin.bind within fun result => ?_
  cases result with
  | ok b => exact rest b
  | error why => trivial

/-- To take a failure as a result asks for no more. -/
theorem StaysWithin.caught {p : Attempt ω β} (within : p.StaysWithin allowed) : p.caught.StaysWithin allowed :=
  Program.StaysWithin.bind within fun _ => trivial

/-- To hold a lock meanwhile asks for no more, as it changes no call. -/
theorem StaysWithin.holding {p : Attempt ω β} (within : p.StaysWithin allowed) (lease : Lease) :
    (p.holding lease).StaysWithin allowed :=
  Program.StaysWithin.holding within lease

end Attempt

end Turnstile
