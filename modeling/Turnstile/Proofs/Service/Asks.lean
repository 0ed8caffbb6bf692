import Mathlib.Tactic.SplitIfs
import Turnstile.Proofs.Program
import Turnstile.Service

/-!
What a service asks of its store.

Whatever requests come, a service makes five kinds of calls: it takes from the bucket of a client on a route, under the limit
of that route; it reads and writes the records of its registry; it takes locks where a route is idempotent, and gives them
back; and it pings. It does not break down by itself either, as a wait in 64 bits can always be told in seconds.
-/

namespace Turnstile

variable {ω : Type} {allowed : Call → Prop}

open Attempt

namespace Throttle

/-- A wait that is reported in 64 bits can always be told in seconds. Rounding up adds one second to a number that is
far below the bound of spans. -/
theorem retryAfter_ok (g : Grant) : ∃ seconds, retryAfter g.wait = .ok seconds := by
  have few : g.wait.seconds + 1 < spanSecondsLimit := by
    have small : g.waitNanos % word64Limit < word64Limit := Nat.mod_lt _ (by decide)
    unfold Span.seconds Grant.wait spanSecondsLimit nanosPerSecond
    unfold word64Limit at small ⊢
    dsimp only
    omega
  have room : g.wait.seconds + (if 0 < g.wait.subsecond then 1 else 0) < spanSecondsLimit := by
    split <;> omega
  exact ⟨_, if_pos room⟩

/-- A limit that can be used asks its bucket, and any other asks for nothing. -/
theorem consume_asks (key : BucketKey) {limit : Limit} {cost : UInt32}
    (asks : limit.fault? = none → allowed (.take key.text limit cost)) :
    (consume key limit cost : Attempt ω Grant).StaysWithin allowed := by
  unfold consume
  split
  · exact staysWithin_throw _
  · rename_i usable
    exact staysWithin_ask (asks usable)

/-- To ask what remains is to take nothing from the bucket. -/
theorem remaining_asks (key : BucketKey) {limit : Limit} (asks : limit.fault? = none → allowed (.take key.text limit 0)) :
    (remaining key limit : Attempt ω Nat).StaysWithin allowed :=
  (consume_asks key asks).bind fun _ => staysWithin_pure _

/-- Admission asks the bucket at most, and that only if the cost can be met. What it decides afterwards asks for
nothing, and the wait of a refusal can be told in seconds. -/
theorem pass_asks (t : Throttle) (key : BucketKey) {p : Policy}
    (asks : p.limit.fault? = none → p.cost ≤ p.limit.capacity → allowed (.take key.text p.limit p.cost)) :
    (t.pass key p : Attempt ω Admission).StaysWithin allowed := by
  unfold pass
  dsimp only
  split_ifs with above
  · exact staysWithin_throw _
  · have asked := consume_asks (ω := ω) key fun usable => asks usable (UInt32.not_lt.mp above)
    refine asked.caught.bind fun outcome => ?_
    cases outcome with
    | error failure =>
      dsimp only
      split_ifs
      · exact staysWithin_pure _
      · exact staysWithin_throw _
    | ok grant =>
      dsimp only
      split_ifs
      · exact staysWithin_pure _
      · obtain ⟨seconds, is⟩ := retryAfter_ok grant
        rw [is]
        exact staysWithin_throw _

end Throttle

namespace Registry

/-- The calls of a registry. -/
inductive Asks (g : Registry) : Call → Prop
  | look (key : String) : Asks g (.get (recordKey key))
  | create (key value : String) : Asks g (.setIfAbsent (recordKey key) value g.life)
  | replace (key expected value : String) : Asks g (.compareAndSet (recordKey key) expected value g.life)
  | evict (key : String) : Asks g (.delete (recordKey key))

/-- The calls of a registry at the record of a key. -/
def AsksAt (g : Registry) (key : String) (c : Call) : Prop := g.Asks c ∧ c.key? = some (recordKey key)

variable (g : Registry)

/-- To find a record is one look at it. -/
theorem find?_asks (key : String) : (g.find? key : Attempt ω (Option Record)).StaysWithin (g.AsksAt key) :=
  (staysWithin_ask ⟨.look key, rfl⟩).bind fun _ => staysWithin_ofResult _

/-- To check a key asks for nothing. -/
theorem checkKey_asks (key : String) : (checkKey key : Attempt ω Unit).StaysWithin allowed := by
  unfold checkKey
  split
  · exact staysWithin_throw _
  · exact staysWithin_pure _

/-- To look a key up is to check it and to find its record. -/
theorem lookup_asks (key : String) : (g.lookup key : Attempt ω Record).StaysWithin (g.AsksAt key) := by
  refine (checkKey_asks key).bind fun _ => (g.find?_asks key).bind fun found => ?_
  cases found with
  | none => exact staysWithin_throw _
  | some record => exact staysWithin_pure _

/-- To evict a key is to check it and to delete its record. -/
theorem evict_asks (key : String) : (g.evict key : Attempt ω Bool).StaysWithin (g.AsksAt key) :=
  (checkKey_asks key).bind fun _ => staysWithin_ask ⟨.evict key, rfl⟩

/-- To issue a key is to create its record, if there is none. -/
theorem issue_asks (key : String) : (g.issue key : Attempt ω Bool).StaysWithin (g.AsksAt key) :=
  staysWithin_ask ⟨.create key _, rfl⟩

/-- To generate a key is to issue one with a name that is made up, so it asks at the record of whichever key that
becomes. -/
theorem generate_asks : (g.generate : Attempt ω String).StaysWithin fun c => ∃ key, g.AsksAt key c := by
  refine staysWithin_freshName.bind fun key => ?_
  refine ((g.issue_asks key).mono fun _ asks => ⟨key, asks⟩).bind fun created => ?_
  cases created with
  | true => exact staysWithin_pure _
  | false => exact staysWithin_throw _

/-- To resolve a key asks for a replacement of its placeholder, then for a look, and then for a creation or a
replacement, all of them at the record of the key. -/
theorem resolve_asks (key : String) (result : Json.Value) :
    (g.resolve key result : Attempt ω Resolution).StaysWithin (g.AsksAt key) := by
  refine (staysWithin_ask ⟨.replace key _ _, rfl⟩).bind fun (replaced : Bool) => ?_
  cases replaced with
  | true => exact staysWithin_pure _
  | false =>
    refine (g.find?_asks key).bind fun found => ?_
    rcases found with _ | _ | other
    · refine (staysWithin_ask ⟨.create key _, rfl⟩).bind fun (created : Bool) => ?_
      cases created with
      | true => exact staysWithin_pure _
      | false =>
        refine (g.find?_asks key).bind fun found => ?_
        rcases found with _ | _ | other
        · exact staysWithin_throw _
        · exact staysWithin_throw _
        · exact staysWithin_pure _
    · exact staysWithin_throw _
    · exact staysWithin_pure _

end Registry

namespace Lease

/-- The calls for locks that are kept for a life. -/
inductive Asks (life : Span) : Call → Prop
  | claim (key token : String) : Asks life (.setIfAbsent (lockKey key) token life)
  | giveBack (l : Lease) : Asks life l.giveBack

/-- The calls for the lock of a key. -/
def AsksAt (life : Span) (key : String) (c : Call) : Prop := Asks life c ∧ c.key? = some (lockKey key)

/-- To release a lock is to give it back once, whatever comes of it. -/
theorem release_asks (l : Lease) (life : Span) : (l.release : Attempt ω Unit).StaysWithin (AsksAt life l.key) :=
  (staysWithin_probe ⟨.giveBack l, rfl⟩).bind fun _ => staysWithin_pure _

/-- Trying for the lock of a key, and going on with a lease of that key or without one. A failure of the call counts as
a lock that others hold. -/
theorem acquire_asks {β : Type} (key : String) (life : Span) {f : Option Lease → Attempt ω β}
    (locks : ∀ c, AsksAt life key c → allowed c) (held : ∀ token, (f (some ⟨key, token⟩)).StaysWithin allowed)
    (busy : (f none).StaysWithin allowed) : (acquire key life >>= f).StaysWithin allowed := by
  refine fun token => ⟨locks _ ⟨.claim key token, rfl⟩, fun (reply : Except Failure Bool) => ?_⟩
  rcases reply with _ | _ | _
  · exact busy
  · exact busy
  · exact held token

end Lease

namespace Guard

variable {τ : Type} {g : Guard} {key : String} (records : ∀ c, g.registry.AsksAt key c → allowed c)
include records

/-- To see what is kept of a key asks for a look at its record, and on behalf of a client for a creation. -/
theorem kept_asks (origin : KeyOrigin) : (g.kept key origin : Attempt ω (Option Json.Value)).StaysWithin allowed := by
  refine ((g.registry.find?_asks key).mono records).bind fun found => ?_
  rcases found with _ | _ | result
  · refine Attempt.StaysWithin.bind ?_ fun _ => staysWithin_pure _
    cases origin with
    | client => exact ((g.registry.issue_asks key).mono records).bind fun _ => staysWithin_pure _
    | server => exact staysWithin_throw _
  · exact staysWithin_pure _
  · exact staysWithin_pure _

/-- What is done under the lock asks for what the operation asks for, and for a look at the record and the storing of a
result. -/
theorem locked_asks (c : Codec τ) (origin : KeyOrigin) {operation : Attempt ω τ}
    (within : operation.StaysWithin allowed) : (g.locked c key origin operation).StaysWithin allowed := by
  refine (kept_asks records origin).bind fun kept => ?_
  cases kept with
  | some result => exact (staysWithin_ofResult _).bind fun _ => staysWithin_pure _
  | none =>
    refine within.bind fun result => (staysWithin_ofResult _).bind fun value => ?_
    refine ((g.registry.resolve_asks key value).mono records).bind fun resolution => ?_
    cases resolution with
    | stored => exact staysWithin_pure _
    | alreadyResolved other => exact (staysWithin_ofResult _).bind fun _ => staysWithin_pure _

/-- To run an operation once asks for what is done under the lock, and for the lock: it is tried for once and given back
on every way out. -/
theorem once_asks (locks : ∀ c, Lease.AsksAt g.lockLife key c → allowed c) (c : Codec τ) (origin : KeyOrigin)
    {operation : Attempt ω τ} (within : operation.StaysWithin allowed) :
    (g.once c key origin operation).StaysWithin allowed := by
  refine (kept_asks records origin).bind fun kept => ?_
  cases kept with
  | some result => exact (staysWithin_ofResult _).bind fun _ => staysWithin_pure _
  | none =>
    refine Lease.acquire_asks key g.lockLife locks (fun token => ?_) (staysWithin_throw _)
    refine ((locked_asks records c origin within).holding ⟨key, token⟩).caught.bind fun outcome => ?_
    exact ((Lease.release_asks ⟨key, token⟩ g.lockLife).mono locks).bind fun _ => staysWithin_ofResult _

omit records

/-- A guarded call takes from its bucket, and on an idempotent route it works on the record and the lock of the key that
it presents, if that is one. -/
theorem run_asks (c : Codec τ) (i : Invocation)
    (bucket : i.policy.limit.fault? = none → i.policy.cost ≤ i.policy.limit.capacity →
      allowed (.take i.bucket.text i.policy.limit i.policy.cost))
    (records : ∀ key, i.key = some key → keyFault? key = none → ∀ c, g.registry.AsksAt key c → allowed c)
    (locks : i.policy.origin ≠ none → ∀ key, i.key = some key → keyFault? key = none →
      ∀ c, Lease.AsksAt g.lockLife key c → allowed c) {operation : Attempt ω τ}
    (within : operation.StaysWithin allowed) : (g.run c i operation).StaysWithin allowed := by
  refine (Throttle.pass_asks g.throttle i.bucket bucket).bind fun admission => ?_
  split
  · exact within.bind fun _ => staysWithin_pure _
  · rename_i origin idempotent
    split
    · exact staysWithin_throw _
    · rename_i key presented
      unfold Registry.checkKey
      split
      · exact staysWithin_throw _
      · rename_i valid
        have locks := locks (by rw [idempotent]; simp) key presented valid
        exact (once_asks (records key presented valid) locks c origin within).bind fun _ => staysWithin_pure _

end Guard

/-- To check the health of the store is to ping it. -/
theorem StoreHealth.check_asks (backend : String) (ping : allowed .ping) :
    (check backend : Attempt ω StoreHealth).StaysWithin allowed :=
  (staysWithin_probe ping).bind fun _ => staysWithin_pure _

namespace Service

open Http (Request Response Site)

/-- The calls of a service. -/
inductive Asks (service : Service) : Call → Prop
  | take (client path method : String) (cost : UInt32)
      (usable : (service.policies.resolve path method).limit.fault? = none)
      (coverable : cost ≤ (service.policies.resolve path method).limit.capacity) :
      Asks service (.take (BucketKey.of client path method).text (service.policies.resolve path method).limit cost)
  | record (c : Call) (asks : service.guard.registry.Asks c) : Asks service c
  | lock (path method : String) (idempotent : (service.policies.resolve path method).origin ≠ none) (c : Call)
      (asks : Lease.Asks service.guard.lockLife c) : Asks service c
  | ping : Asks service .ping

/-- Whatever a service calls for a client is allowed. -/
structure Allows (service : Service) (client : String) (allowed : Call → Prop) : Prop where
  take : ∀ path method cost, (service.policies.resolve path method).limit.fault? = none →
    cost ≤ (service.policies.resolve path method).limit.capacity →
      allowed (.take (BucketKey.of client path method).text (service.policies.resolve path method).limit cost)
  record : ∀ key c, service.guard.registry.AsksAt key c → allowed c
  lock : ∀ path method, (service.policies.resolve path method).origin ≠ none →
    ∀ key c, Lease.AsksAt service.guard.lockLife key c → allowed c
  ping : allowed .ping

variable (service : Service)

/-- What a service calls for a client is among the calls of the service. -/
theorem allows_asks (client : String) : service.Allows client service.Asks where
  take := .take client
  record _ c asks := .record c asks.1
  lock path method idempotent _ c asks := .lock path method idempotent c asks.1
  ping := .ping

/-- A guarded call of a service, around an operation that asks for no more, asks for calls of the service. Its bucket,
record and lock are of the kinds that are listed. -/
theorem run_asks (client path method : String) (key : Option String) {τ : Type} (codec : Codec τ)
    {operation : Attempt ω τ} (within : operation.StaysWithin service.Asks) :
    (service.guard.run codec ⟨.of client path method, service.policies.resolve path method, key⟩
      operation).StaysWithin service.Asks :=
  Guard.run_asks codec _ (fun usable coverable => .take _ _ _ _ usable coverable) (fun _ _ _ c asks => .record c asks.1)
    (fun idempotent _ _ _ c asks => .lock path method idempotent c asks.1) within

/-- Where a key has to be presented, nothing is asked for without one. -/
theorem withKey_asks (values : List (String × String)) {f : String → Answer}
    (within : ∀ key, (f key).StaysWithin allowed) : (Service.withKey values f).StaysWithin allowed := by
  unfold Service.withKey
  split
  · exact staysWithin_pure _
  · split
    · exact within _
    · exact staysWithin_pure _

/-- To take a payment makes up a name at most, and asks nothing of the store. -/
theorem pay_asks (view : View) (r : Request) : (Service.pay view r).StaysWithin allowed := by
  unfold Service.pay
  split
  · exact staysWithin_pure _
  · split
    · exact staysWithin_freshName.bind fun _ => staysWithin_pure _
    · exact staysWithin_pure _

/-- The guard in front of an operation, around an operation that asks for no more, asks for its bucket, for the record
and for the lock. Making a response of the outcome asks for nothing. -/
theorem guarded_asks_only (pattern : String) (r : Request)
    (bucket : (service.policies.resolve pattern r.method).limit.fault? = none →
      (service.policies.resolve pattern r.method).cost ≤ (service.policies.resolve pattern r.method).limit.capacity →
        allowed (.take (service.invocation pattern r).bucket.text (service.policies.resolve pattern r.method).limit
          (service.policies.resolve pattern r.method).cost))
    (records : ∀ key, (service.invocation pattern r).key = some key → keyFault? key = none →
      ∀ c, service.guard.registry.AsksAt key c → allowed c)
    (locks : (service.policies.resolve pattern r.method).origin ≠ none →
      ∀ key, (service.invocation pattern r).key = some key → keyFault? key = none →
        ∀ c, Lease.AsksAt service.guard.lockLife key c → allowed c)
    {operation : Program Response Response} (within : operation.StaysWithin allowed) :
    (service.guarded pattern r operation).StaysWithin allowed := by
  have recorded : (recorded operation).StaysWithin allowed := by
    refine (staysWithin_lift within).bind fun response => ?_
    split
    · exact staysWithin_pure _
    · exact staysWithin_throw _
  refine Program.StaysWithin.bind (Guard.run_asks _ _ bucket records locks recorded) fun _ => ?_
  trivial

section

variable {service : Service} {client : String} (allows : service.Allows client allowed)
include allows

/-- The status of a limit is read by a take of nothing, which the capacity always covers. -/
theorem Allows.limitStatus (path method : String) :
    (service.limitStatus client path method : Attempt ω LimitStatus).StaysWithin allowed := by
  have none : (0 : UInt32) ≤ (service.policies.resolve path method).limit.capacity :=
    UInt32.le_iff_toNat_le.mpr (Nat.zero_le _)
  exact (Throttle.remaining_asks _ fun usable => allows.take path method 0 usable none).bind fun _ => staysWithin_pure _

/-- What is done for an action that a client asks for: each action is one of the parts above, or several of them. -/
theorem Allows.act (view : View) (r : Request) (asker : clientName r.headers r.peer service.trustHeaders = client)
    (values : List (String × String)) (action : Action) : (service.act view r values action).StaysWithin allowed := by
  cases action with
  | pay => exact pay_asks view r
  | issueKey =>
    have records : ∀ c, (∃ key, service.guard.registry.AsksAt key c) → allowed c := by
      rintro c ⟨key, asks⟩
      exact allows.record key c asks
    exact ((Registry.generate_asks _).mono records).bind fun _ => staysWithin_pure _
  | showKey =>
    refine withKey_asks values fun key => ?_
    exact ((Registry.lookup_asks _ key).mono (allows.record key)).bind fun _ => staysWithin_pure _
  | evictKey =>
    refine withKey_asks values fun key => ?_
    refine ((Registry.evict_asks _ key).mono (allows.record key)).bind fun evicted => ?_
    cases evicted with
    | true => exact staysWithin_pure _
    | false => exact staysWithin_throw _
  | showLimit =>
    change (Service.showLimit service r).StaysWithin allowed
    unfold Service.showLimit
    split
    · exact staysWithin_pure _
    · rw [asker]
      exact (allows.limitStatus _ _).bind fun _ => staysWithin_pure _
  | health => exact (StoreHealth.check_asks service.backend allows.ping).bind fun _ => staysWithin_pure _
  | readiness => exact (StoreHealth.check_asks service.backend allows.ping).bind fun _ => staysWithin_pure _
  | counts => exact staysWithin_pure _
  | wrapped => exact fun _ => trivial

/-- The guard in front of an operation, on behalf of a client. The bucket is that client's own. -/
theorem Allows.guarded (pattern : String) (r : Request) (asker : clientName r.headers r.peer service.trustHeaders = client)
    {operation : Program Response Response} (within : operation.StaysWithin allowed) :
    (service.guarded pattern r operation).StaysWithin allowed := by
  subst asker
  exact service.guarded_asks_only pattern r (fun usable coverable => allows.take _ _ _ usable coverable)
    (fun key _ _ => allows.record key) (fun idempotent key _ _ => allows.lock _ _ idempotent key) within

/-- What is done for an action, a failure being told in the response. To tell it asks for nothing. -/
theorem Allows.responded (view : View) (r : Request) (asker : clientName r.headers r.peer service.trustHeaders = client)
    (values : List (String × String)) (action : Action) :
    (responding (service.act view r values action)).StaysWithin allowed := by
  refine Program.StaysWithin.bind (allows.act view r asker values action) fun result => ?_
  cases result <;> trivial

/-- The answer to any request of a client: the action of its route, with the guard in front where the route has one, or
a response that is made without the store. -/
theorem Allows.answer (site : Site Action) (view : View) (r : Request)
    (asker : clientName r.headers r.peer service.trustHeaders = client) :
    (service.answer site view r).StaysWithin allowed := by
  unfold Service.answer
  dsimp only
  split
  · trivial
  · rename_i route values found
    split
    · trivial
    · rcases route.handling? r.method with _ | handling
      · split
        · exact Program.StaysWithin.bind (allows.guarded _ r asker trivial) fun _ => trivial
        · trivial
      · split
        · exact Program.StaysWithin.bind (allows.guarded _ r asker (allows.responded _ r asker _ _)) fun _ => trivial
        · exact Program.StaysWithin.bind (allows.responded _ r asker _ _) fun _ => trivial

end

/-- The status of a limit asks for calls of the service only. -/
theorem limitStatus_asks (client path method : String) :
    (service.limitStatus client path method : Attempt ω LimitStatus).StaysWithin service.Asks :=
  (service.allows_asks client).limitStatus path method

/-- The answer to any request asks for calls of the service only, whoever sends it. -/
theorem answer_asks (site : Site Action) (view : View) (r : Request) :
    (service.answer site view r).StaysWithin service.Asks :=
  (service.allows_asks _).answer site view r rfl

end Service

end Turnstile
