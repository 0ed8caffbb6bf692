import Turnstile.Program

/-!
Running a program from its first step to its last, without anything in between.

A host answers the steps and carries a state along. A program ends by finishing, by breaking down, or by being
cancelled while the wrapped operation runs; in the last two cases the lease that is held there is told.
-/

namespace Turnstile

/-- How a wrapped operation ends. -/
inductive WorkEnd (ω : Type) where
  | answered (answer : ω)
  | broke (why : Breakdown)
  /-- It never ends by itself, and its caller gives up. -/
  | cancelled

/-- What answers the steps of a program. -/
structure Host (σ ω : Type) where
  call : (c : Call) → σ → σ × Except Breakdown (Except Failure c.Reply)
  fresh : σ → σ × String
  work : σ → σ × WorkEnd ω

/-- How a program ends. -/
inductive Exit (α : Type) where
  | finished (a : α)
  | broke (held : Option Lease) (why : Breakdown)
  | cancelled (held : Option Lease)

/-- Runs a program. -/
def Program.play {σ ω α : Type} (host : Host σ ω) : Program ω α → σ → σ × Exit α
  | .done a, s => (s, .finished a)
  | .broken held why, s => (s, .broke held why)
  | .call held c next, s =>
    match host.call c s with
    | (s, .ok reply) => (next reply).play host s
    | (s, .error why) => (s, .broke held why)
  | .fresh next, s =>
    let (s, name) := host.fresh s
    (next name).play host s
  | .work held next, s =>
    match host.work s with
    | (s, .answered answer) => (next answer).play host s
    | (s, .broke why) => (s, .broke held why)
    | (s, .cancelled) => (s, .cancelled held)

/-- The lease that was held when a program broke off. -/
def Exit.held {α : Type} : Exit α → Option Lease
  | .finished _ => none
  | .broke held _ | .cancelled held => held

end Turnstile
