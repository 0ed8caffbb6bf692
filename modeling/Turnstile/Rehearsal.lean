import Turnstile.Rehearsal.Stage
import Turnstile.Service

/-!
Rehearsals of a service: steps that are played on a stage one after another, with a report on each.

A guarded call may have steps of its own that happen while its operation runs. They are reported inside the
report on the call.
-/

namespace Turnstile.Rehearsal

open Json (Value)
open Http (Response Route Site)

/-- The kinds of results that guarded calls have. -/
inductive ResultKind where
  | any
  | count
  | text
  | recording
  deriving DecidableEq, Repr

/-- How a rehearsed operation ends. -/
inductive OperationEnd where
  | returns (result : Value)
  | fails (failure : Failure)
  | breaks (text : String)
  | hangs

/-- A guarded call with a rehearsed operation. -/
structure GuardedCall where
  bucket : BucketKey
  policy : Policy
  key : Option String
  kind : ResultKind
  /-- The route that the call is counted for. -/
  route : Option String
  ending : OperationEnd

/-- A step of its own. -/
inductive Act where
  | advance (span : Span)
  | down (isDown : Bool)
  | arm (count : Nat) (act : Sabotage)
  | call (c : Call)
  | size
  | purge
  | issue (key : String)
  | generate
  | find (key : String)
  | lookup (key : String)
  | resolve (key : String) (result : Value)
  | evict (key : String)
  | recordLife
  | acquire (key : String) (life : Span) (name : String)
  | breakLock (key : String)
  /-- Gives the lease of that name back. -/
  | release (name : String)
  /-- Drops the lease, so that it is given back in the background. -/
  | drop (name : String)
  /-- Forgets the lease, so that nobody gives it back. -/
  | forget (name : String)
  | consume (bucket : BucketKey) (limit : Limit) (cost : UInt32)
  | remaining (bucket : BucketKey) (limit : Limit)
  | reset (bucket : BucketKey)
  | pass (bucket : BucketKey) (policy : Policy)
  | record (route : String) (ending : Ending)
  | counts (route : String)
  | allCounts
  | health
  | http (request : Http.Request)
  | uses

/-- A step: an act, or a guarded call with the steps that happen while its operation runs. -/
inductive Step where
  | act (a : Act)
  | run (call : GuardedCall) (during : List Step)

/-- Why a step has no result. -/
inductive Trouble where
  | failed (failure : Failure)
  | broke (why : Breakdown)
  | cancelled

/-- What a step shows. -/
inductive Shown where
  | nothing
  | yes (b : Bool)
  | text (s : String)
  | found (s : Option String)
  | number (n : Nat)
  | grant (g : Grant)
  | size (n : Nat)
  | record (r : Option Record)
  | resolution (r : Resolution)
  | span (s : Span)
  | acquired (key : Option String)
  | held (b : Bool)
  | admission (a : Admission)
  | guarded (result : Value) (replayed : Bool) (a : Admission)
  | counts (c : Option Counts)
  | allCounts (t : Tally)
  | health (h : StoreHealth)
  | response (r : Response)
  | uses (t : Table String Nat)

/-- A report on one step: what it shows, how many entries are live after it, and its calls of the store. For
    a guarded call also whether its operation ran, and what happened meanwhile. -/
inductive Report where
  | act (shown : Except Trouble Shown) (live : Except Breakdown Nat) (calls : List String)
  | run (shown : Except Trouble Shown) (live : Except Breakdown Nat) (calls : List String) (ran : Bool)
      (during : List Report)

/-- A wrapped operation behind a route, with the responses that it gives one after another. The last one
    stays. -/
structure Handler where
  path : String
  method : String
  responses : List Response

/-- What is rehearsed. -/
structure Play where
  service : Service
  handlers : List Handler
  /-- The routes of the service and of the handlers. -/
  site : Site Service.Action
  /-- The wall clock. -/
  now : Nat

namespace Play

/-- A play of a service with handlers beside its own routes. -/
def ofHandlers (service : Service) (handlers : List Handler) (now : Nat) : Except Route.Fault Play := do
  let site ← handlers.foldlM (fun site h => site.add h.path (Service.wrapping h.method)) Service.site
  return { service, handlers, site, now }

/-- The handler behind a request, and the name that its uses are counted under. -/
def handler? (p : Play) (r : Http.Request) : Option (String × Handler) := do
  let (route, _) ← p.site.find? r.target.path
  let of (method : String) : Option Handler :=
    p.handlers.find? fun h => h.path == route.pattern && h.method == method
  let handler ← (of r.method).or (if r.method = "HEAD" then of "GET" else none)
  return (handler.method ++ " " ++ handler.path, handler)

/-- Asks a handler. -/
def ask (name : String) (h : Handler) (s : Stage) : Stage × WorkEnd Response :=
  let count := (s.uses.find? name).getD 0
  let response := (h.responses[count]?.or h.responses.getLast?).getD (.bare 200)
  ({ s with uses := s.uses.insert name (count + 1) }, .answered response)

end Play

/-- The result of a use of the store itself. -/
def settle {ρ : Type} (view : ρ → Shown) : Except Breakdown (Except Failure ρ) → Except Trouble Shown
  | .ok (.ok a) => .ok (view a)
  | .ok (.error failure) => .error (.failed failure)
  | .error why => .error (.broke why)

/-- The result of a program. -/
def outcome {α : Type} (view : α → Shown) : Exit (Except Failure α) → Except Trouble Shown
  | .finished (.ok a) => .ok (view a)
  | .finished (.error failure) => .error (.failed failure)
  | .broke _ why => .error (.broke why)
  | .cancelled _ => .error .cancelled

/-- Plays a program without a wrapped operation. -/
def perform {α : Type} (s : Stage) (view : α → Shown) (p : Attempt Empty α) : Stage × Except Trouble Shown :=
  let (s, ended) := s.play (fun s => (s, .cancelled)) p.run
  (s, outcome view ended)

/-- What the reply to a call shows. -/
def showReply : (c : Call) → c.Reply → Shown
  | .get _, found => .found found
  | .set .., _ => .nothing
  | .setIfAbsent .., b => .yes b
  | .compareAndSet .., b => .yes b
  | .delete _, b => .yes b
  | .deleteIfEquals .., b => .yes b
  | .take .., grant => .grant grant
  | .ping, answer => .text answer

/-- The value that a result is shown as. -/
def shownValue {τ : Type} (c : Codec τ) (result : τ) : Value := (c.encode result).toOption.getD .null

/-- The end of a rehearsed operation whose results go through a codec. -/
def operationEnd {τ : Type} (c : Codec τ) : OperationEnd → WorkEnd (Except Failure τ)
  | .returns result => .answered ((c.decode result).mapError Guard.unreadable)
  | .fails failure => .answered (.error failure)
  | .breaks text => .broke (.raised text)
  | .hangs => .cancelled

/-- Plays a guarded call. `during` plays the steps that happen while the operation runs. The stage that the
    operation leaves carries along whether it ran, and the reports on those steps. -/
def performGuarded {τ : Type} (p : Play) (c : Codec τ) (g : GuardedCall)
    (during : Stage → Stage × List Report) (s : Stage) : Stage × Except Trouble Shown × Bool × List Report :=
  let host : Host (Stage × Bool × List Report) (Except Failure τ) :=
    { call := fun c (s, rest) =>
        let (s, reply) := s.call c
        ((s, rest), reply)
      fresh := fun (s, rest) =>
        let (s, name) := s.freshName
        ((s, rest), name)
      work := fun (s, _, _) =>
        let (s, reports) := during s
        ((s, true, reports), operationEnd c g.ending) }
  let program := (p.service.guard.run c ⟨g.bucket, g.policy, g.key⟩ Attempt.work).run
  let ((s, ran, reports), ended) := program.play host (s, false, [])
  let s := s.giveBack ended.held
  let s :=
    match ended, g.route with
    | .finished result, some route => { s with tally := s.tally.record p.now route (Ending.of result) }
    | _, _ => s
  (s, outcome (fun r => .guarded (shownValue c r.result) r.replayed r.admission) ended, ran, reports)

/-- Plays a guarded call with results of its kind. -/
def performCall (p : Play) (g : GuardedCall) (during : Stage → Stage × List Report) (s : Stage) :
    Stage × Except Trouble Shown × Bool × List Report :=
  match g.kind with
  | .any => performGuarded p .any g during s
  | .count => performGuarded p .count g during s
  | .text => performGuarded p .text g during s
  | .recording => performGuarded p .recording g during s

/-- Plays a request. -/
def performRequest (p : Play) (s : Stage) (r : Http.Request) : Stage × Except Trouble Shown :=
  let work : Stage → Stage × WorkEnd Response :=
    match p.handler? r with
    | some (name, handler) => Play.ask name handler
    | none => fun s => (s, .cancelled)
  match s.play work (p.service.answer p.site ⟨p.now, 0, s.tally⟩ r) with
  | (s, .finished (response, count)) =>
    let s := match count with
      | some (route, ending) => { s with tally := s.tally.record p.now route ending }
      | none => s
    (s, .ok (.response response))
  | (s, .broke _ why) => (s, .error (.broke why))
  | (s, .cancelled _) => (s, .error .cancelled)

/-- Plays an act. -/
def performAct (p : Play) (s : Stage) : Act → Stage × Except Trouble Shown
  | .advance span =>
    let (s, moved) := s.advance span
    (s, settle (fun _ => .nothing) (moved.map .ok))
  | .down isDown => ({ s with isDown }, .ok .nothing)
  | .arm count act => ({ s with armed := s.armed ++ [(count, act)] }, .ok .nothing)
  | .call c => perform s (showReply c) (Attempt.ask c)
  | .size =>
    let live := s.live
    (s, settle .size (live.map .ok))
  | .purge =>
    let (s, purged) := s.atNow fun store now => store.purge now
    (s, settle .number purged)
  | .issue key => perform s .yes (p.service.guard.registry.issue key)
  | .generate => perform s .text p.service.guard.registry.generate
  | .find key => perform s .record (p.service.guard.registry.find? key)
  | .lookup key => perform s (fun r => .record (some r)) (p.service.guard.registry.lookup key)
  | .resolve key result => perform s .resolution (p.service.guard.registry.resolve key result)
  | .evict key => perform s .yes (p.service.guard.registry.evict key)
  | .recordLife => (s, .ok (.span p.service.guard.registry.life))
  | .acquire key life name =>
    match s.play (fun s => (s, .cancelled)) (Lease.acquire key life : Attempt Empty (Option Lease)).run with
    | (s, .finished (.ok (some lease))) =>
      ({ s with leases := s.leases.insert name lease }, .ok (.acquired (some lease.key)))
    | (s, ended) => (s, outcome (fun _ => .acquired none) ended)
  | .breakLock key => perform s (fun _ => .nothing) (Turnstile.breakLock key)
  | .release name =>
    match s.leases.find? name with
    | none => (s, .ok (.held false))
    | some lease => perform { s with leases := s.leases.erase name } (fun _ => .held true) lease.release
  | .drop name =>
    let lease? := s.leases.find? name
    (({ s with leases := s.leases.erase name }).giveBack lease?, .ok (.held lease?.isSome))
  | .forget name =>
    ({ s with leases := s.leases.erase name }, .ok (.held (s.leases.find? name).isSome))
  | .consume bucket limit cost => perform s .grant (Throttle.consume bucket limit cost)
  | .remaining bucket limit => perform s .number (Throttle.remaining bucket limit)
  | .reset bucket => perform s .yes (Throttle.reset bucket)
  | .pass bucket policy => perform s .admission (p.service.guard.throttle.pass bucket policy)
  | .record route ending => ({ s with tally := s.tally.record p.now route ending }, .ok .nothing)
  | .counts route => (s, .ok (.counts (s.tally.route? route)))
  | .allCounts => (s, .ok (.allCounts s.tally))
  | .health => perform s .health (StoreHealth.check p.service.backend)
  | .http request => performRequest p s request
  | .uses => (s, .ok (.uses s.uses))

mutual

/-- Plays a step and reports on it. The calls of the step are noted apart from those around it. -/
def Step.play (p : Play) : Step → Stage → Stage × Report
  | .run g during, s =>
    let outer := s.calls
    let (s, shown, ran, reports) := performCall p g (playAll p during) { s with calls := [] }
    ({ s with calls := outer }, .run shown s.live s.calls.reverse ran reports)
  | .act a, s =>
    let outer := s.calls
    let (s, shown) := performAct p { s with calls := [] } a
    ({ s with calls := outer }, .act shown s.live s.calls.reverse)

/-- Plays steps in order. -/
def playAll (p : Play) : List Step → Stage → Stage × List Report
  | [], s => (s, [])
  | step :: rest, s =>
    let (s, report) := step.play p s
    let (s, reports) := playAll p rest s
    (s, report :: reports)

end

end Turnstile.Rehearsal
