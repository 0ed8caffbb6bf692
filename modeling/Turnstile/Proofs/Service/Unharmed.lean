import Turnstile.Proofs.Crowd.Play
import Turnstile.Proofs.Policies
import Turnstile.Proofs.Record
import Turnstile.Proofs.Service.Room

/-!
Which settings keep a service unharmed.

Accepted settings promise that lives and intervals last, not that clocks can show when they end. A service is
unharmed as long as its store is not broken, nobody has broken down, and the store answers whatever is asked next. Up
to a last moment it stays so in every course, exactly if the spans of its settings end while clocks can show it: the
interval between sweeps, the life of a record, the time that each bucket is kept, and the life of a lock, if any
route has locks.

With room, each step of a caller asks for what has room, so the store answers and keeps its room. Without room there
is a course of a few steps after the last moment's wait that comes to the call that breaks the store.
-/

namespace Turnstile

variable {ω β τ : Type} {k : String} {start last : Moment}

/-- Up to a last moment: time does not go past it, and calls from outside have room. -/
def Move.Until (last : Moment) (move : Move ω) (v' : Scene Binary64 ω) : Prop :=
  v'.now ≤ last ∧ ∀ c, move = .outside c → c.FitsAfter last

namespace Crowd

/-- A course up to a last moment. -/
abbrev CourseUntil (last : Moment) (k : String) (w w' : Crowd Binary64 ω β) : Prop :=
  Course k (fun move _ v' => move.Until last v') w w'

/-- The store is not broken, nobody has broken down, and whatever is asked next is answered. -/
structure Unharmed (w : Crowd Binary64 ω β) : Prop where
  unbroken : w.store.isBroken = false
  running : ∀ i held why, w.callers i ≠ .broken held why
  answered : ∀ i held c next, w.callers i = .call held c next →
    ∃ store reply, w.store.perform w.now c = (store, .ok (.ok reply))

/-- All that is left to do has room. -/
structure Upright (last : Moment) (w : Crowd Binary64 ω β) : Prop where
  soon : w.now ≤ last
  roomy : w.store.Roomy last w.now
  within : ∀ i, (w.callers i).StaysWithin (Call.FitsAfter last)

variable {w w' : Crowd Binary64 ω β}

/-- What has room is answered, and nobody breaks down whose calls are answered. -/
theorem Upright.unharmed (upright : w.Upright last) : w.Unharmed where
  unbroken := upright.roomy.sound.unbroken
  running i held why is := by
    have within := upright.within i
    rw [is] at within
    exact within
  answered i held c next ready := by
    have within := upright.within i
    rw [ready] at within
    obtain ⟨store, reply, performed, -⟩ := upright.roomy.perform upright.soon within.1
    exact ⟨store, reply, performed⟩

/-- Every step up to the last moment leaves room for all that is left to do. The store keeps its room through a call
that has room, a sweep and the passing of time; and what is left of a program asks for no more than the program did. -/
theorem Upright.step {move : Move ω} (upright : w.Upright last) (step : w.Step move w')
    (fair : move.Until last (w'.scene k)) : w'.Upright last := by
  have goOn (i : Nat) (rest : Program ω β) (within : rest.StaysWithin (Call.FitsAfter last)) :
      ∀ j, (Function.update w.callers i rest j).StaysWithin (Call.FitsAfter last) :=
    (Function.forall_update_iff _ fun _ (p : Program ω β) => p.StaysWithin _).mpr ⟨within, fun j _ => upright.within j⟩
  have turn {i : Nat} {p : Program ω β} (ready : w.callers i = p) : p.StaysWithin (Call.FitsAfter last) :=
    ready ▸ upright.within i
  cases step with
  | answered i held c next store reply ready performed =>
    obtain ⟨store', reply', performed', roomy⟩ := upright.roomy.perform upright.soon (turn ready).1
    rw [performed] at performed'
    cases performed'
    exact { soon := upright.soon, roomy := roomy, within := goOn i _ ((turn ready).2 _) }
  | failed i held c next why ready =>
    exact { soon := upright.soon, roomy := upright.roomy, within := goOn i _ ((turn ready).2 _) }
  | broke i held c next store why ready performed =>
    obtain ⟨store', reply', performed', -⟩ := upright.roomy.perform upright.soon (turn ready).1
    rw [performed] at performed'
    cases performed'
  | named i next name ready new =>
    exact { soon := upright.soon, roomy := upright.roomy, within := goOn i _ (turn ready name) }
  | worked i held next answer ready =>
    exact { soon := upright.soon, roomy := upright.roomy, within := goOn i _ (turn ready answer) }
  | outside c =>
    obtain ⟨store, reply, performed, roomy⟩ := upright.roomy.perform upright.soon (fair.2 c rfl)
    have roomy' : (w.store.perform w.now c).1.Roomy last w.now := by
      rw [performed]
      exact roomy
    exact { soon := upright.soon, roomy := roomy', within := upright.within }
  | purge => exact { soon := upright.soon, roomy := upright.roomy.purge upright.soon, within := upright.within }
  | wait later ahead => exact { soon := fair.1, roomy := upright.roomy.later ahead, within := upright.within }

/-- So does every course, step by step. -/
theorem Upright.course (upright : w.Upright last)
    (course : CourseUntil last k w w') : w'.Upright last := by
  induction course with
  | start => exact upright
  | step _ step fair inductionHypothesis => exact inductionHypothesis.step step fair

end Crowd

/-- What a service is asked for. -/
inductive Demand (τ : Type) where
  /-- A guarded call on a route. The key is the one it presents. -/
  | guarded (client path method : String) (key : Option String) (codec : Codec τ)
  /-- The state of the limit of a client for a route. -/
  | limit (client path method : String)
  | issue (key : String)
  | generate
  | find (key : String)
  | lookup (key : String)
  | resolve (key : String) (result : Json.Value)
  | evict (key : String)

/-- What meets a demand. What it comes to does not matter here. -/
def Demand.program (service : Service) : Demand τ → Program (Except Failure τ) (Except Failure Unit)
  | .guarded client path method key codec => do
    return (← (service.guard.run codec ⟨.of client path method, service.policies.resolve path method, key⟩
      Attempt.work).run).map fun _ => ()
  | .limit client path method => do return (← (service.limitStatus client path method).run).map fun _ => ()
  | .issue key => do return (← (service.guard.registry.issue key).run).map fun _ => ()
  | .generate => do return (← service.guard.registry.generate.run).map fun _ => ()
  | .find key => do return (← (service.guard.registry.find? key).run).map fun _ => ()
  | .lookup key => do return (← (service.guard.registry.lookup key).run).map fun _ => ()
  | .resolve key result => do return (← (service.guard.registry.resolve key result).run).map fun _ => ()
  | .evict key => do return (← (service.guard.registry.evict key).run).map fun _ => ()

/-- A service with its demands over a store. -/
def Service.facing (service : Service) (demands : Nat → Demand τ) (store : Store Binary64) (now : Moment) :
    Crowd Binary64 (Except Failure τ) (Except Failure Unit) where
  now
  store
  callers i := (demands i).program service
  past := []

/-- From the start over an empty store to the last moment, a service is unharmed in every course, whatever it is asked
for. -/
def Service.Endures (service : Service) (τ : Type) (sweepInterval : Span) (start last : Moment) : Prop :=
  ∃ store, Store.empty start sweepInterval = .ok store ∧
    ∀ (k : String) (demands : Nat → Demand τ) w',
      Crowd.CourseUntil last k (service.facing demands store start) w' → w'.Unharmed

namespace Service

variable {service : Service} {sweepInterval : Span}

/-- With room, what meets a demand has room. Every call that a service makes is one on a bucket, a record or a lock, and
the spans of these have room. -/
theorem HasRoom.demand (room : service.HasRoom sweepInterval last) (demand : Demand τ) :
    (demand.program service).StaysWithin (Call.FitsAfter last) := by
  have forgetting {β : Type} {p : Attempt (Except Failure τ) β} (within : p.StaysWithin service.Asks) :
      Program.StaysWithin (Call.FitsAfter last)
        (do return (← p.run).map fun _ => () : Program (Except Failure τ) (Except Failure Unit)) :=
    Program.StaysWithin.bind (Program.StaysWithin.mono within room.fits) fun _ => trivial
  have records (key : String) (c : Call) (asks : service.guard.registry.AsksAt key c) : service.Asks c := .record c asks.1
  cases demand with
  | guarded client path method key codec =>
    exact forgetting (service.run_asks client path method key codec Attempt.staysWithin_work)
  | limit client path method => exact forgetting (service.limitStatus_asks client path method)
  | issue key => exact forgetting ((Registry.issue_asks _ key).mono (records key))
  | generate => exact forgetting ((Registry.generate_asks _).mono fun c ⟨key, asks⟩ => records key c asks)
  | find key => exact forgetting ((Registry.find?_asks _ key).mono (records key))
  | lookup key => exact forgetting ((Registry.lookup_asks _ key).mono (records key))
  | resolve key result => exact forgetting ((Registry.resolve_asks _ key result).mono (records key))
  | evict key => exact forgetting ((Registry.evict_asks _ key).mono (records key))

/-- With room, a service endures: the store is opened with room for its first sweep, and the demands keep within it. -/
theorem HasRoom.endures (room : service.HasRoom sweepInterval last) (ahead : start ≤ last) :
    service.Endures τ sweepInterval start last := by
  obtain ⟨store, opened, roomy⟩ := Store.empty_roomy room.sweeps ahead
  refine ⟨store, opened, fun k demands w' course => ?_⟩
  have upright : (service.facing demands store start).Upright last :=
    { soon := ahead, roomy := roomy, within := fun i => room.demand (demands i) }
  exact (upright.course course).unharmed

end Service

/-! Where the spans have no room, a few steps at the last moment come to the call that breaks the store. -/

namespace Crowd

/-- What is there after a caller was answered at the last moment. -/
structure Answered (last : Moment) (i : Nat) (c : Call) (key : String) (next : Except Failure c.Reply → Program ω β)
    (w w' : Crowd Binary64 ω β) (reply : c.Reply) (e : Option (Entry Binary64)) : Prop where
  now : w'.now = last
  distinct : w'.store.entries.Distinct
  callers : w'.callers = Function.update w.callers i (next (.ok reply))
  past : w'.past = ⟨i, last, .called c (.ok reply)⟩ :: w.past
  decided : c.onEntry last (w.store.live? last key) = .ok (e, reply)
  shown : w'.store.live? last key = e.filter (·.isLive last)
  others : ∀ other, other ≠ key → w'.store.live? last other = w.store.live? last other

/-- A caller of an unharmed crowd is answered as the live entry at its call's key decides. Unharmed says that there is
an answer, and what answers mean is known of every sound store. -/
theorem Unharmed.ask {w₀ w : Crowd Binary64 ω β} (unharmed : w.Unharmed)
    (course : CourseUntil last k w₀ w) (now : w.now = last)
    (distinct : w.store.entries.Distinct) {i : Nat} {held : Option Lease} {c : Call}
    {next : Except Failure c.Reply → Program ω β} {key : String} (ready : w.callers i = .call held c next)
    (touched : c.key? = some key) :
    ∃ w' reply e, CourseUntil last k w₀ w' ∧ Answered last i c key next w w' reply e := by
  subst now
  obtain ⟨store, reply, performed⟩ := unharmed.answered i held c next ready
  obtain ⟨e, decided, shown, others, distinct'⟩ := Store.perform_answered touched distinct performed
  refine ⟨_, reply, e, course.step (.answered i held c next store _ ready performed) ⟨Nat.le_refl _, nofun⟩, ?_⟩
  exact {
    now := rfl
    distinct := distinct'
    callers := rfl
    past := rfl
    decided := decided
    shown := shown
    others := others }

end Crowd

namespace Service

variable {service : Service} {sweepInterval : Span} {store : Store Binary64}

/-- Whoever asks for the state of a limit asks its bucket for nothing, which is a take like any other. -/
theorem limit_asks (client : String) {path method : String}
    (usable : (service.policies.resolve path method).fault? = none) :
    ∃ next, (Demand.limit client path method : Demand τ).program service =
      .call none (.take (BucketKey.of client path method).text (service.policies.resolve path method).limit 0)
        next := by
  simp only [Demand.program, limitStatus, Throttle.remaining, Throttle.consume, (Policy.usable_limit usable).1]
  exact ⟨_, rfl⟩

/-- A guarded call asks its bucket first. Once that grants the cost, it looks up its key; and if the key is pending,
it makes up a name and tries for the lock. -/
theorem guarded_asks (client key : String) {path method : String} (codec : Codec τ) {p : Policy} {origin : KeyOrigin}
    (resolved : service.policies.resolve path method = p) (usable : p.fault? = none)
    (idempotent : p.origin = some origin) (fine : keyFault? key = none) :
    ∃ next, (Demand.guarded client path method (some key) codec).program service =
        .call none (.take (BucketKey.of client path method).text p.limit p.cost) next ∧
      ∀ grant : Grant, grant.granted = true →
        ∃ next', next (.ok grant) = .call none (.get (recordKey key)) next' ∧
          ∃ next'', next' (.ok (some Record.placeholder)) = .fresh next'' ∧
            ∀ token, ∃ next''', next'' token =
              .call none (.setIfAbsent (lockKey key) token service.guard.lockLife) next''' := by
  obtain ⟨limits, coverable⟩ := Policy.usable_limit usable
  have read : Registry.readRecord (some Record.placeholder) = .ok (some .pending) := by
    simp only [Registry.readRecord, Record.read_placeholder]
  simp only [Demand.program, resolved]
  obtain ⟨limit, cost, threshold, _⟩ := p
  cases idempotent
  simp only [Guard.run, Throttle.pass, Throttle.consume, if_neg (UInt32.not_lt.mpr coverable), limits,
    Registry.checkKey, fine]
  refine ⟨_, rfl, fun grant granted => ?_⟩
  obtain ⟨_, remaining, wait⟩ := grant
  cases granted
  refine ⟨_, rfl, ?_⟩
  simp only [Attempt.ofResult, Program.bind, ExceptT.bindCont, ExceptT.mk, read]
  exact ⟨_, rfl, fun token => ⟨_, rfl⟩⟩

/-- A call that creates a text at a free key and is decided has room: the time at which the text expires was reached, so
clocks can show it. -/
theorem fits_of_created {key value : String} {life : Span} {before after : Option (Entry Binary64)} {created : Bool}
    (decided : Call.onEntry last (.setIfAbsent key value life) before = .ok (after, created)) (free : before = none) :
    life.FitsAfter last ∧ created = true ∧ ∃ expires, Store.later last life = .ok expires ∧
      after = some ⟨.text value, expires⟩ := by
  subst free
  cases created with
  | false => exact absurd (Call.onEntry_set_false decided).1 (by simp)
  | true =>
    obtain ⟨-, expires, reached, is⟩ := Call.onEntry_set_true decided
    exact ⟨Span.fitsAfter_iff.mpr ⟨expires, reached⟩, rfl, expires, reached, is⟩

section

variable (ahead : start ≤ last) (opened : Store.empty start sweepInterval = .ok store)
  (unharmed : ∀ (k : String) (demands : Nat → Demand τ) w',
    Crowd.CourseUntil last k (service.facing demands store start) w' → w'.Unharmed)
include ahead

omit opened unharmed in
/-- A service that has waited to the last moment. -/
theorem waited_course (service : Service) (store : Store Binary64) (demands : Nat → Demand τ) :
    Crowd.CourseUntil last k (service.facing demands store start) (service.facing demands store last) :=
  .step (.start _) (.wait last ahead) ⟨Nat.le_refl _, nofun⟩

include opened unharmed

/-- A sweep at the last moment reckons when the next one is due. As the store is not broken by it, the interval has
room. -/
theorem sweeps_fit : sweepInterval.FitsAfter last := by
  obtain ⟨-, interval, -⟩ := Store.empty_ok opened
  have purged := unharmed "" (fun _ => .generate) _
    (.step (waited_course ahead _ _ _) .purge ⟨Nat.le_refl _, nofun⟩)
  rw [← interval]
  exact Store.fits_of_purged purged.unbroken

/-- To issue a key at the last moment creates its record, which has room as soon as the call is decided. -/
theorem records_fit : service.guard.registry.life.FitsAfter last := by
  obtain ⟨sound, -, free⟩ := Store.empty_ok opened
  have course := waited_course (τ := τ) (k := "") ahead service store fun _ => .issue ""
  obtain ⟨_, created, e, -, asked⟩ := (unharmed _ _ _ course).ask course rfl sound.distinct (i := 0) rfl rfl
  exact (fits_of_created asked.decided (free last _)).1

/-- To ask at the last moment how a limit stands keeps its bucket, for the time that the limit says. -/
theorem bucket_fits {path method : String} (usable : (service.policies.resolve path method).fault? = none) :
    (service.policies.resolve path method).limit.FitsAfter last := by
  obtain ⟨sound, -, -⟩ := Store.empty_ok opened
  obtain ⟨next, asks⟩ := limit_asks (τ := τ) "" usable
  have course := waited_course (τ := τ) (k := "") ahead service store fun _ => .limit "" path method
  obtain ⟨_, grant, e, -, asked⟩ := (unharmed _ _ _ course).ask course rfl sound.distinct (i := 0) asks rfl
  obtain ⟨_, span, expires, -, kept, reached, -⟩ := Call.onEntry_take asked.decided
  exact ⟨span, kept, Span.fitsAfter_iff.mpr ⟨expires, reached⟩⟩

/-- Once the first caller has issued a key, the record of the key is pending, and nothing else is kept. This is where
the courses to a lock start from. -/
theorem issued_course {key : String} (demands : Nat → Demand τ) (first : demands 0 = .issue key)
    (records : 0 < service.guard.registry.life.nanos) :
    ∃ w, Crowd.CourseUntil last "" (service.facing demands store start) w ∧ w.now = last ∧
      w.store.entries.Distinct ∧ (∀ i, i ≠ 0 → w.callers i = (demands i).program service) ∧
      (∀ note ∈ w.past, ∀ name, note.deed ≠ .named name) ∧
      (w.store.live? last (recordKey key)).bind Entry.text? = some Record.placeholder ∧
      ∀ other, other ≠ recordKey key → w.store.live? last other = none := by
  obtain ⟨sound, -, free⟩ := Store.empty_ok opened
  have course := waited_course (k := "") ahead service store demands
  have ready : (service.facing demands store last).callers 0 = (Demand.issue key).program service := by
    rw [← first]
    rfl
  obtain ⟨w, created, e, course', issued⟩ := (unharmed _ _ _ course).ask course rfl sound.distinct ready rfl
  obtain ⟨-, -, expires, reached, rfl⟩ := fits_of_created issued.decided (free last _)
  have live : (⟨.text Record.placeholder, expires⟩ : Entry Binary64).isLive last = true := by
    have later := Store.later_nanos reached
    exact decide_eq_true (show last.nanos < expires.nanos by omega)
  refine ⟨w, course', issued.now, issued.distinct, fun i other => ?_, ?_, ?_, fun other elsewhere => ?_⟩
  · rw [issued.callers, Function.update_of_ne other]
    rfl
  · rw [issued.past]
    simp [facing]
  · rw [issued.shown, Option.filter_some, if_pos live]
    rfl
  · exact (issued.others other elsewhere).trans (free last other)

/-- One caller issues a key, another presents it on an idempotent route and comes to the lock. The tokens of a full
bucket cover its cost, the record is pending, and the name that it makes up is new, so nothing stops it on the way. -/
theorem locks_fit {path method : String} (usable : (service.policies.resolve path method).fault? = none)
    (records : 0 < service.guard.registry.life.nanos)
    (idempotent : (service.policies.resolve path method).origin ≠ none) : service.guard.lockLife.FitsAfter last := by
  obtain ⟨origin, idempotent⟩ := Option.ne_none_iff_exists'.mp idempotent
  have codec : Codec τ := ⟨fun _ => .error .valueExpected, fun _ => .error .valueExpected⟩
  obtain ⟨afterTake, asks, goesOn⟩ := guarded_asks "" "k" codec rfl usable idempotent (by decide +kernel)
  let demands (i : Nat) : Demand τ := if i = 0 then .issue "k" else .guarded "" path method (some "k") codec
  obtain ⟨w₁, course₁, now, distinct, others, unnamed, pending, free⟩ :=
    issued_course ahead opened unharmed demands rfl records
  -- The bucket is full and covers the cost.
  obtain ⟨w₂, grant, e, course₂, taken⟩ :=
    (unharmed _ _ _ course₁).ask course₁ now distinct ((others 1 (by decide)).trans asks) rfl
  have granted : grant.granted = true := by
    obtain ⟨bucket, -, -, decided, -, -, -⟩ := Call.onEntry_take taken.decided
    rw [free _ (bucketKey_ne_recordKey _ _ _ _)] at decided
    exact Bucket.full_grants (Policy.usable_limit usable).2 decided
  obtain ⟨afterLook, looks, afterName, names, goesOn⟩ := goesOn grant granted
  -- The look at the key reads that it is pending.
  have looks := ((congrFun taken.callers 1).trans (Function.update_self ..)).trans looks
  obtain ⟨w₃, found, e, course₃, looked⟩ := (unharmed _ _ _ course₂).ask course₂ taken.now taken.distinct looks rfl
  have read : found = some Record.placeholder := by
    rw [(Call.onEntry_get looked.decided).1, taken.others _ (bucketKey_ne_recordKey _ _ _ _).symm, pending]
  subst read
  -- A name is made up, and nobody has touched the lock so far.
  have names := ((congrFun looked.callers 1).trans (Function.update_self ..)).trans names
  have new : ∀ note ∈ w₃.past, note.deed ≠ .named "holder" := by
    rw [looked.past, taken.past]
    simpa using fun note noted => unnamed note noted "holder"
  have course₄ := course₃.step (.named 1 afterName "holder" names new)
    ⟨Nat.le_of_eq (congrArg Moment.nanos looked.now), nofun⟩
  obtain ⟨afterLock, locks⟩ := goesOn "holder"
  have locks : (w₃.after 1 (.named "holder") (afterName "holder") w₃.store).callers 1 =
      .call none (.setIfAbsent (lockKey "k") "holder" service.guard.lockLife) afterLock := by
    simpa only [Crowd.after, Function.update_self] using locks
  obtain ⟨_, granted, e, -, locked⟩ := (unharmed _ _ _ course₄).ask course₄ looked.now looked.distinct locks rfl
  have unlocked : w₃.store.live? last (lockKey "k") = none := by
    rw [looked.others _ (recordKey_ne_lockKey _ _).symm, taken.others _ (bucketKey_ne_lockKey _ _ _ _).symm]
    exact free _ (recordKey_ne_lockKey _ _).symm
  exact (fits_of_created locked.decided unlocked).1

end

/-- A service that endures has room for all its spans. For each of them there is a course that comes to a call with that
span at the last moment, and the call is answered. -/
theorem Endures.hasRoom (endures : service.Endures τ sweepInterval start last) (ahead : start ≤ last)
    (usable : service.policies.Usable) (records : 0 < service.guard.registry.life.nanos) :
    service.HasRoom sweepInterval last := by
  obtain ⟨store, opened, unharmed⟩ := endures
  exact {
    sweeps := sweeps_fit ahead opened unharmed
    records := records_fit ahead opened unharmed
    buckets path method := bucket_fits ahead opened unharmed (usable.resolve path method)
    locks path method idempotent := locks_fit ahead opened unharmed (usable.resolve path method) records idempotent }

end Service

/-- Accepted settings keep a service unharmed up to a last moment, exactly if its spans end while clocks can show
it. -/
theorem accepted_settings_endure_iff (τ : Type) {s : Settings} {files : Settings.Files} (backend : String)
    (accepted : s.check files = .ok ()) (ahead : start ≤ last) :
    ∃ service, Service.ofSettings s files backend = .ok service ∧
      (service.Endures τ s.sweepInterval start last ↔ service.HasRoom s.sweepInterval last) := by
  obtain ⟨t, made, sound⟩ := Settings.accepted_of_check accepted
  refine ⟨_, Service.ofSettings_ok backend made, ?_⟩
  constructor
  · exact fun endures => endures.hasRoom ahead sound.usable sound.records
  · exact fun room => room.endures ahead

/-- What comes about and passes a check is some value that passes it. -/
theorem ok_of_any {ε β : Type} {outcome : Except ε β} {passes : β → Bool}
    (passed : outcome.toOption.any passes = true) : ∃ b, outcome = .ok b ∧ passes b = true := by
  cases outcome with
  | error why => cases passed
  | ok b => exact ⟨b, rfl, passed⟩

/-- There are no files. -/
def noFiles : Settings.Files := fun _ => .error "no such file"

/-- Usual settings serve for three hundred years. Each of their spans ends while clocks can show it. -/
theorem accepted_settings_endure_iff_usual :
    ∃ service, Service.ofSettings .usual noFiles "memory" = .ok service ∧
      service.Endures String Settings.usual.sweepInterval ⟨0⟩ ⟨10000000000000000000⟩ := by
  have checked : (Settings.usual.check noFiles).toOption.any (fun _ => true) = true := by decide +kernel
  have limits : (Settings.usual.policies noFiles).toOption.any (fun t =>
      decide (t.otherwise.limit = Settings.usual.policy.limit ∧
        ∀ pair ∈ t.routes.pairs, pair.2.limit = Settings.usual.policy.limit)) = true := by decide +kernel
  obtain ⟨_, accepted, -⟩ := ok_of_any checked
  obtain ⟨t, made, same⟩ := ok_of_any limits
  obtain ⟨otherwise, routes⟩ := of_decide_eq_true same
  obtain ⟨service, serving, endures⟩ := accepted_settings_endure_iff String "memory" accepted
    (show (⟨0⟩ : Moment) ≤ ⟨10000000000000000000⟩ from Nat.zero_le _)
  obtain rfl : _ = service := Except.ok.inj ((Service.ofSettings_ok "memory" made).symm.trans serving)
  refine ⟨_, serving, endures.mpr ?_⟩
  exact {
    sweeps := by decide +kernel
    records := show Settings.usual.recordLife.FitsAfter _ by decide +kernel
    buckets path method := by
      have limit : (t.resolve path method).limit = Settings.usual.policy.limit :=
        Policies.resolve_holds (motive := fun p => p.limit = Settings.usual.policy.limit) otherwise
          (fun name p found => routes _ (Table.mem_of_find? found)) path method
      exact ⟨.ofSeconds 120, by rw [limit]; decide +kernel, by decide +kernel⟩
    locks _ _ _ := show Settings.usual.lockLife.FitsAfter _ by decide +kernel }

/-- A full bucket would take longer to fill up than any span lasts. -/
def slowRefill : Settings := { Settings.usual with period := .ofSeconds 18446744073709551615 }

/-- One asks how a limit stands, all others for a new key. -/
def limitThenKey : Nat → Demand String
  | 0 => .limit "client" "/api/payments" "POST"
  | _ => .generate

/-- Settings that are accepted, and a store that breaks at the first look at a limit. From then on it refuses to make
keys. -/
theorem accepted_settings_break_slowRefill :
    slowRefill.check noFiles = .ok () ∧
      ∃ service, Service.ofSettings slowRefill noFiles "memory" = .ok service ∧
        ∃ store, Store.empty ⟨0⟩ slowRefill.sweepInterval = .ok store ∧
          ∃ w', (service.facing limitThenKey store ⟨0⟩).play "" (fun _ _ _ => true)
              [.call 0, .name 1 "order-1", .call 1] = some w' ∧
            (w'.callers 0).broken? = some .spanOutOfRange ∧ w'.store.isBroken = true ∧
            (w'.callers 1).lost?.map Failure.message = some Store.refusal.message := by
  have played : (Service.ofSettings slowRefill noFiles "memory").toOption.any (fun service =>
      (Store.empty ⟨0⟩ slowRefill.sweepInterval).toOption.any fun store =>
        ((service.facing limitThenKey store ⟨0⟩).play "" (fun _ _ _ => true)
          [.call 0, .name 1 "order-1", .call 1]).any fun w' =>
            decide ((w'.callers 0).broken? = some .spanOutOfRange ∧ w'.store.isBroken = true ∧
              (w'.callers 1).lost?.map Failure.message = some Store.refusal.message)) = true := by
    decide +kernel
  obtain ⟨service, serving, rest⟩ := ok_of_any played
  obtain ⟨store, opened, rest⟩ := ok_of_any rest
  obtain ⟨w', is, facts⟩ := (Option.any_eq_true _ _).mp rest
  have checked : (slowRefill.check noFiles).toOption.any (fun _ => true) = true := by decide +kernel
  obtain ⟨_, accepted, -⟩ := ok_of_any checked
  exact ⟨accepted, service, serving, store, opened, w', is, of_decide_eq_true facts⟩

end Turnstile
