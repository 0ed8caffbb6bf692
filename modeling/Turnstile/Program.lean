import Turnstile.Call
import Turnstile.Failure

/-!
Programs that work on the shared store, one call at a time.

A program is a tree: what it does next, and how it goes on for each answer. Between any two of its steps other
programs may run; nothing is assumed about what they do. A step also tells the lease that is held there, so
that whoever runs the program can give the lock back when the program breaks off at that step.
-/

namespace Turnstile

/-- A lock that is held: its key, and the token that tells this holder from others. -/
structure Lease where
  key : String
  token : String
  deriving DecidableEq, Repr

/-- A program that ends in an `α`. It may run a wrapped operation, which answers an `ω`. -/
inductive Program (ω α : Type) where
  | done (a : α)
  /-- Breaks down. -/
  | broken (held : Option Lease) (why : Breakdown)
  | call (held : Option Lease) (c : Call) (next : Except Failure c.Reply → Program ω α)
  /-- Makes up a name that nobody else has. -/
  | fresh (next : String → Program ω α)
  /-- Runs the wrapped operation. -/
  | work (held : Option Lease) (next : ω → Program ω α)

namespace Program

variable {ω α β : Type}

/-- Goes on with the result of a program. -/
def bind : Program ω α → (α → Program ω β) → Program ω β
  | .done a, f => f a
  | .broken held why, _ => .broken held why
  | .call held c next, f => .call held c fun reply => (next reply).bind f
  | .fresh next, f => .fresh fun name => (next name).bind f
  | .work held next, f => .work held fun answer => (next answer).bind f

instance : Monad (Program ω) where
  pure := .done
  bind := bind

/-- The same program, with a lease held at every step. -/
def holding (lease : Lease) : Program ω α → Program ω α
  | .done a => .done a
  | .broken _ why => .broken (some lease) why
  | .call _ c next => .call (some lease) c fun reply => (next reply).holding lease
  | .fresh next => .fresh fun name => (next name).holding lease
  | .work _ next => .work (some lease) fun answer => (next answer).holding lease

end Program

/-- A program that may fail. -/
abbrev Attempt (ω : Type) := ExceptT Failure (Program ω)

namespace Attempt

variable {ω α : Type}

/-- Calls the store. -/
def ask (c : Call) : Attempt ω c.Reply := ExceptT.mk (.call none c .done)

/-- Calls the store and gives a failure of the call as an answer. -/
def probe (c : Call) : Attempt ω (Except Failure c.Reply) := ExceptT.lift (.call none c .done)

/-- A name that nobody else has. -/
def freshName : Attempt ω String := ExceptT.lift (.fresh .done)

/-- Runs the wrapped operation. -/
def wrapped : Attempt ω ω := ExceptT.lift (.work none .done)

/-- Runs the wrapped operation, which may fail. -/
def work : Attempt (Except Failure α) α := ExceptT.mk (.work none .done)

/-- Goes on with a result that may be a breakdown. -/
def ofBreakdown : Except Breakdown α → Attempt ω α
  | .ok a => return a
  | .error why => ExceptT.lift (.broken none why)

/-- Goes on with a result that may be a failure. -/
def ofResult (result : Except Failure α) : Attempt ω α := ExceptT.mk (.done result)

/-- Gives the failure of a program as its answer. -/
def caught (p : Attempt ω α) : Attempt ω (Except Failure α) := ExceptT.lift p.run

/-- The same program, with a lease held at every step. -/
def holding (lease : Lease) (p : Attempt ω α) : Attempt ω α := ExceptT.mk (p.run.holding lease)

end Attempt

end Turnstile
