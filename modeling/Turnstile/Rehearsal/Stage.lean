import Turnstile.Lock
import Turnstile.Program.Play
import Turnstile.Store
import Turnstile.Tally
import Turnstile.Text.Quoted

/-!
The stage of a rehearsal: a store inside the process on a clock that moves only when it is told to.

Every call of the store is noted down. The store can be taken down, and an act of sabotage can be set to
happen just before a later call. A clock that is moved out of its range stays broken.
-/

namespace Turnstile.Rehearsal

/-- What happens just before a call. -/
inductive Sabotage where
  | fail (why : String)
  | advance (span : Span)
  | set (key value : String) (life : Span)
  | delete (key : String)
  deriving Repr

/-- The stage: clock, store, what is armed, and what has been noted. -/
structure Stage where
  /-- What the clock shows; nothing once it is broken. -/
  clock : Option Moment
  store : Store Binary64
  isDown : Bool
  /-- Acts of sabotage with the number of calls until they happen. -/
  armed : List (Nat × Sabotage)
  /-- The calls of the step, last first. -/
  calls : List String
  /-- How many names have been made up. -/
  names : Nat
  /-- The leases that are held by name. -/
  leases : Table String Lease
  tally : Tally
  /-- How often each wrapped operation was asked. -/
  uses : Table String Nat

namespace Stage

/-- A fresh stage with a store that sweeps once in the given interval. -/
def opened (sweepInterval : Span) : Except Breakdown Stage := do
  let store ← Store.empty ⟨0⟩ Store.usualSweepInterval
  let store := { store with sweepInterval, nextSweep := ← Store.later ⟨0⟩ sweepInterval }
  return {
    clock := some ⟨0⟩
    store
    isDown := false
    armed := []
    calls := []
    names := 0
    leases := .empty
    tally := .empty
    uses := .empty }

/-- A name in the form of a random identifier, told from others by its number. -/
def nameOf (n : Nat) : String :=
  let digits := Nat.toDigits 16 n
  "7b1d5ac3-94e6-4f08-a2c7-" ++ String.ofList (List.replicate (12 - digits.length) '0' ++ digits)

def freshName (s : Stage) : Stage × String := ({ s with names := s.names + 1 }, nameOf s.names)

/-- Moves the clock. -/
def advance (s : Stage) (span : Span) : Stage × Except Breakdown Unit :=
  match s.clock with
  | none => (s, .error .clockBroken)
  | some now =>
    match now.after? span with
    | some now => ({ s with clock := some now }, .ok ())
    | none => ({ s with clock := none }, .error .momentOutOfRange)

/-- A use of the store itself, at what the clock shows. -/
def atNow {ρ : Type} (s : Stage) (f : Store Binary64 → Moment → Store Binary64 × Except Breakdown ρ) :
    Stage × Except Breakdown ρ :=
  match s.clock with
  | none => (s, .error .clockBroken)
  | some now =>
    let (store, reply) := f s.store now
    ({ s with store }, reply)

/-- How many entries are live. -/
def live (s : Stage) : Except Breakdown Nat :=
  match s.clock with
  | none => .error .clockBroken
  | some now => .ok (s.store.size now)

/-- Calls the store without a note. A ping does not look at the clock. -/
def callStore (s : Stage) (c : Call) : Stage × Except Breakdown (Except Failure c.Reply) :=
  match c with
  | .ping => (s, (s.store.perform ⟨0⟩ .ping).2)
  | c => s.atNow fun store now => store.perform now c

/-- Does an act of sabotage. Gives a failure if the call ends with it. -/
def sabotage (s : Stage) : Sabotage → Stage × Except Breakdown (Except Failure Unit)
  | .fail why => (s, .ok (.error (.storeUnavailable why)))
  | .advance span =>
    let (s, moved) := s.advance span
    (s, moved.map .ok)
  | .set key value life => s.callStore (.set key value life)
  | .delete key =>
    let (s, reply) := s.callStore (.delete key)
    (s, reply.map fun r => r.map fun _ => ())

/-- Does several acts of sabotage, up to the first that ends the call. -/
def sabotages (s : Stage) : List Sabotage → Stage × Except Breakdown (Except Failure Unit)
  | [] => (s, .ok (.ok ()))
  | a :: rest =>
    match s.sabotage a with
    | (s, .ok (.ok ())) => s.sabotages rest
    | ended => ended

/-- A call as it is noted down: its name and its key, without blanks at the end. -/
def note (c : Call) : String := Text.trim (c.name ++ " " ++ c.key?.getD "")

/-- Calls the store: notes the call down, lets it fail if the store is down, and does what is armed for it. -/
def call (s : Stage) (c : Call) : Stage × Except Breakdown (Except Failure c.Reply) :=
  let s := { s with calls := note c :: s.calls }
  if s.isDown then (s, .ok (.error (.storeUnavailable "connection refused")))
  else
    let counted := s.armed.map fun a => (a.1 - 1, a.2)
    let due := (counted.filter (·.1 = 0)).map (·.2)
    match { s with armed := counted.filter (·.1 ≠ 0) }.sabotages due with
    | (s, .ok (.ok ())) => s.callStore c
    | (s, .ok (.error failure)) => (s, .ok (.error failure))
    | (s, .error why) => (s, .error why)

/-- Gives a lease back in the background: nobody sees whether that fails. -/
def giveBack (s : Stage) (held : Option Lease) : Stage :=
  match held with
  | none => s
  | some lease => (s.call lease.giveBack).1

/-- Runs a program on the stage. A lease that is held when it breaks off is given back in the background. -/
def play {ω α : Type} (s : Stage) (work : Stage → Stage × WorkEnd ω) (p : Program ω α) : Stage × Exit α :=
  let (s, ended) := p.play ⟨fun c s => s.call c, freshName, work⟩ s
  (s.giveBack ended.held, ended)

end Stage

end Turnstile.Rehearsal
