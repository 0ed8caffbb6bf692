import Turnstile.Proofs.Guard.Visit
import Turnstile.Proofs.Lock.Exclusion

/-!
Every way out of a guarded call gives the lock back.

Guarded calls come in any number, with any keys, on any routes. They take their steps in any order, each of their
calls may fail without effect, and their operations may answer anything. A call that gets the lock leaves it by one
call that gives the lock back, whether the look under the lock, the operation or the resolution ended well or not. So
a live record of a lock never carries the token of a call that has returned, unless its own attempt to give the lock
back failed. A call that did not get the lock has changed no lock at all.

Calls that break down are not covered: their leases are given back by others, or run out.
-/

namespace Turnstile

variable {α τ : Type} {k : String} {i : Nat}

/-- A caller has not got the lock of a key. -/
def Unclaiming {ω : Type} (k : String) (i : Nat) (past : List (Note ω)) : Prop :=
  ∀ claim ∈ claims k past, claim.caller ≠ i

/-- A caller has tried to give back the lock, if it got it. -/
def GivenBack {ω : Type} (k : String) (i : Nat) (past : List (Note ω)) : Prop :=
  ∀ claim ∈ claims k past, claim.caller = i →
    ∃ note ∈ past, note.caller = i ∧ ∃ reply, note.deed = .called (.deleteIfEquals (lockKey k) claim.token) reply

/-- A caller holds a lease, and if the lease is on the key it is the only one of the caller's. -/
structure Leased {ω : Type} (k : String) (i : Nat) (lease : Lease) (v : Scene α ω) : Prop where
  claimed : lease.key = k → Claimed k i lease.token v
  only : ∀ claim ∈ claims k v.past, claim.caller = i → lease.key = k ∧ claim.token = lease.token

section

variable {ω : Type} {v v' : Scene α ω}

/-- Who has not got the lock has nothing to give back. -/
theorem Unclaiming.givenBack {past : List (Note ω)} (unclaiming : Unclaiming k i past) : GivenBack k i past :=
  fun claim claimed mine => absurd mine (unclaiming claim claimed)

/-- Others get nobody else the lock. -/
theorem unclaiming_onward (moved : v.Onward i v') (unclaiming : Unclaiming k i v.past) : Unclaiming k i v'.past :=
  fun claim claimed mine => unclaiming claim (Fenced.claims_mine moved claimed mine) mine

/-- What was given back stays given back while others move, and they add no claim of the caller's. -/
theorem givenBack_onward (moved : v.Onward i v') (given : GivenBack k i v.past) : GivenBack k i v'.past := by
  intro claim claimed mine
  obtain ⟨note, noted, is⟩ := given claim (Fenced.claims_mine moved claimed mine) mine
  exact ⟨note, moved.more noted, is⟩

/-- A lease stays the only one of its caller while others move. -/
theorem leased_onward {lease : Lease} (moved : v.Onward i v') (leased : Leased k i lease v) :
    Leased k i lease v' where
  claimed here := Fenced.claimed_onward moved (leased.claimed here)
  only claim claimed mine := leased.only claim (Fenced.claims_mine moved claimed mine) mine

/-- A caller has given back whatever it got. If a lock still carries a token of the caller's, giving it back failed: had
the store answered, the claim would not be open, and the lock would not show it. -/
theorem failed_of_givenBack {e : Entry α} {token : String} {time : Moment} (fenced : Fenced k v)
    (given : GivenBack k i v.past) (shown : v.lock = some e) (carries : e.text? = some token)
    (named : ⟨i, time, .named token⟩ ∈ v.past) :
    ∃ note ∈ v.past, note.caller = i ∧
      ∃ why, note.deed = .called (.deleteIfEquals (lockKey k) token) (.error why) := by
  have shows := fenced.shows
  rw [shown] at shows
  obtain ⟨claim, rest, all, isOpen, is, -⟩ := shows
  have claimed : claim ∈ claims k v.past := by
    rw [all]
    exact List.mem_cons_self
  have same : claim.token = token := by
    rw [is] at carries
    exact Option.some.inj carries
  -- The token is a name that the caller made up, so the claim is the caller's own.
  have mine : claim.caller = i := by
    obtain ⟨time', named'⟩ := fenced.named claim claimed
    exact fenced.single token claim.caller i time' time (same ▸ named') named
  obtain ⟨note, noted, by', reply, gave⟩ := given claim claimed mine
  rw [same] at gave
  cases reply with
  | error why => exact ⟨note, noted, by', why, gave⟩
  | ok reply =>
    have closed : note.gaveBack k claim.token = true := by simp [Note.gaveBack, gave, same]
    have open' : v.past.any (Note.gaveBack k claim.token) = false := by
      simpa only [Claim.isOpen, Bool.not_eq_true'] using isOpen
    rw [List.any_eq_true.mpr ⟨note, noted, closed⟩] at open'
    cases open'

/-- Calls that are not at the lock are allowed, as the rule speaks of those at it only. -/
theorem lockRule_apart {c : Call} (apart : c.key? ≠ some (lockKey k)) : LockRule k i v (.calling c) :=
  fun touched => absurd touched apart

/-- A record is never at the key of a lock, so calls at records are allowed. -/
theorem record_apart {c : Call} {key : String} (touched : c.key? = some (recordKey key)) :
    c.key? ≠ some (lockKey k) := by
  rw [touched]
  exact fun same => recordKey_ne_lockKey key k (Option.some.inj same)

variable [TokenNumber α]

/-- Whatever is claimed after a deed was claimed before or is claimed by the deed. -/
theorem claim_of_own {deed : Deed ω} (did : Scene.Own k i deed v v') {claim : Claim}
    (claimed : claim ∈ claims k v'.past) :
    claim ∈ claims k v.past ∨ (⟨i, v.now, deed⟩ : Note ω).claim? k = some claim := by
  obtain ⟨note, noted, is⟩ := List.mem_filterMap.mp claimed
  rw [did.past] at noted
  rcases List.mem_cons.mp noted with new | old
  · exact .inr (new ▸ is)
  · exact .inl (List.mem_filterMap.mpr ⟨note, old, is⟩)

/-- A deed that claims nothing leaves the claims as they are. -/
theorem claims_of_own {deed : Deed ω} (did : Scene.Own k i deed v v')
    (unclaimed : (⟨i, v.now, deed⟩ : Note ω).claim? k = none) : claims k v'.past = claims k v.past := by
  rw [did.past, Fenced.claims_cons v.past unclaimed]

/-- And so a caller that had not got the lock has not got it after such a deed. -/
theorem unclaiming_own {deed : Deed ω} (did : Scene.Own k i deed v v')
    (unclaimed : (⟨i, v.now, deed⟩ : Note ω).claim? k = none) (unclaiming : Unclaiming k i v.past) :
    Unclaiming k i v'.past := by
  unfold Unclaiming
  rwa [claims_of_own did unclaimed]

/-- And a lease is the only one of its caller after such a deed, if it was before. -/
theorem leased_own {deed : Deed ω} {lease : Lease} (did : Scene.Own k i deed v v')
    (unclaimed : (⟨i, v.now, deed⟩ : Note ω).claim? k = none) (leased : Leased k i lease v) :
    Leased k i lease v' where
  claimed here := by
    unfold Claimed
    rw [claims_of_own did unclaimed]
    exact leased.claimed here
  only := by
    rw [claims_of_own did unclaimed]
    exact leased.only

/-- A try for a lock that the store grants is the only one of a caller that had none. It is a claim on the key in
question exactly if the lock is that of the key. -/
theorem leased_of_granted {key token : String} {life : Span} (unclaiming : Unclaiming k i v.past)
    (did : Scene.Own k i (.called (.setIfAbsent (lockKey key) token life) (.ok true)) v v') :
    Leased k i ⟨key, token⟩ v' where
  claimed := by
    rintro rfl
    exact Fenced.claimed_of_granted did
  only claim claimed mine := by
    rcases claim_of_own did claimed with old | new
    · exact absurd mine (unclaiming claim old)
    · simp only [Note.claim?] at new
      split at new
      · rename_i same
        cases new
        exact ⟨lockKey_injective same, rfl⟩
      · cases new

/-- Who gives its lease back has given back whatever it got, for it had got nothing else. -/
theorem givenBack_of_returned {lease : Lease} {reply : Except Failure Bool} (leased : Leased k i lease v)
    (did : Scene.Own k i (.called lease.giveBack reply) v v') : GivenBack k i v'.past := by
  intro claim claimed mine
  have unclaimed : (⟨i, v.now, .called lease.giveBack reply⟩ : Note ω).claim? k = none := rfl
  rw [claims_of_own did unclaimed] at claimed
  obtain ⟨here, same⟩ := leased.only claim claimed mine
  refine ⟨_, did.noted, rfl, reply, ?_⟩
  rw [same, ← here]
  rfl

/-- A caller that has not got a lock leaves it as it is. It can not give it back, and if it tries for it the try is
refused, or it would have got it. -/
theorem lock_of_unclaiming {β : Type} {w w' : Crowd α ω β} {deed : Deed ω} (step : w.Step (.own i deed) w')
    (distinct : w.store.entries.Distinct) (rule : LockRule k i (w.scene k) deed.doing)
    (unclaiming : Unclaiming k i w'.past) :
    w'.store.live? w'.now (lockKey k) = w.store.live? w.now (lockKey k) := by
  have did : Scene.Own k i deed (w.scene k) (w'.scene k) := (step.moves distinct k).1
  change (w'.scene k).lock = (w.scene k).lock
  cases deed with
  | broke c why => exact did.lock
  | named name => exact did.lock
  | worked answer => exact did.lock
  | called c reply =>
    by_cases touched : c.key? = some (lockKey k)
    · rcases rule touched with ⟨token, life, rfl, -⟩ | ⟨token, rfl, claim, claimed, mine, -⟩
      · cases reply with
        | error why => exact did.lock
        | ok granted =>
          cases granted with
          | true =>
            obtain ⟨claim, claimed, mine, -⟩ := Fenced.claimed_of_granted did
            exact absurd mine (unclaiming claim claimed)
          | false =>
            obtain ⟨e, decided, shown⟩ := Deed.changes_at rfl did.lock
            rw [shown, (Call.onEntry_set_false decided).2]
            exact (Store.live?_later w.store (Nat.le_refl w.now.nanos) (lockKey k)).symm
      · exact absurd mine (unclaiming claim (Fenced.claims_mono did.more claimed))
    · exact Deed.changes_elsewhere touched did.lock

end

section

variable {v : Scene α (Except Failure τ)} [TokenNumber α]

/-- A caller that has not got the lock stays without it, whatever others do. -/
theorem unclaiming_lasting :
    (fencing (α := α) (ω := Except Failure τ) k).Lasting i fun v => Unclaiming k i v.past :=
  fun _ _ moved _ => unclaiming_onward moved

/-- And what it has given back it has given back. -/
theorem givenBack_lasting :
    (fencing (α := α) (ω := Except Failure τ) k).Lasting i fun v => GivenBack k i v.past :=
  fun _ _ moved _ => givenBack_onward moved

/-- What is done under a lease leaves the lease as it is: those calls are at the record, which has a key of its own, and
the operation is no call. -/
theorem leased_carries (g : Guard) (key : String) (codec : Codec τ) (lease : Lease) :
    (fencing (α := α) k).Carries i (Leased k i lease) g key codec where
  lasting _ _ moved _ := leased_onward moved
  kept _ _ _ reply leased touched did :=
    leased_own did (Fenced.idle_of_elsewhere (record_apart touched) reply _).unclaimed leased
  worked _ _ _ leased did := leased_own did rfl leased
  looks _ _ _ := lockRule_apart (record_apart rfl)
  issues _ _ _ := lockRule_apart (record_apart rfl)
  works _ _ _ := trivial
  replaces _ _ _ _ _ _ _ _ := lockRule_apart (record_apart rfl)
  creates _ _ _ _ _ _ _ _ := lockRule_apart (record_apart rfl)

/-- What is done once a call is admitted on an idempotent route. If the lock is not got there is nothing to give back;
if it is, the call gives it back on every way out, whatever came of the operation. -/
theorem givenBack_once (g : Guard) (codec : Codec τ) (key : String) (origin : KeyOrigin)
    (unclaiming : Unclaiming k i v.past) :
    (fencing (α := α) k).Meets i (fun v _ => GivenBack k i v.past) (fun v _ => GivenBack k i v.past)
      (g.once codec key origin Attempt.work) v := by
  have looking : (fencing (α := α) k).Meets i (fun v _ => Unclaiming k i v.past) (fun v _ => Unclaiming k i v.past)
      (g.kept key origin) v :=
    Conduct.meets_kept unclaiming_lasting unclaiming (fun _ _ _ => lockRule_apart (record_apart rfl))
      (fun _ _ _ => lockRule_apart (record_apart rfl)) fun _ _ _ reply unclaiming touched did =>
        unclaiming_own did (Fenced.idle_of_elsewhere (record_apart touched) reply _).unclaimed unclaiming
  unfold Guard.once
  refine Conduct.Meets.bind (Conduct.Meets.weaken looking ?_ fun _ _ _ => Unclaiming.givenBack)
  intro v₁ found _ unclaiming₁
  cases found with
  | some result => exact Conduct.Meets.map _ (Conduct.meets_decoding givenBack_lasting unclaiming₁.givenBack)
  | none =>
    refine Conduct.Meets.bind (Conduct.meets_acquire fun v₂ moved₂ fenced₂ => ⟨trivial, ?_⟩)
    intro token v₃ did₃ _ _ v₄ moved₄ _
    have fresh₄ : Fresh k i token v₄ := Fenced.fresh_onward moved₄ (fenced₂.fresh_of_named did₃)
    have unclaiming₄ : Unclaiming k i v₄.past :=
      unclaiming_onward moved₄ (unclaiming_own did₃ rfl (unclaiming_onward moved₂ unclaiming₁))
    refine ⟨fun touched => .inl ⟨token, g.lockLife, ?_, fresh₄⟩, fun reply v₅ did₅ _ _ v₆ moved₆ _ => ?_⟩
    · rw [lockKey_injective (Option.some.inj touched)]
    · rcases reply with why | _ | _
      · have unclaiming₆ : Unclaiming k i v₆.past :=
          unclaiming_onward moved₆ (unclaiming_own did₅ rfl unclaiming₄)
        exact Conduct.meets_throw (givenBack_lasting.henceforth unclaiming₆.givenBack)
      · have unclaiming₆ : Unclaiming k i v₆.past :=
          unclaiming_onward moved₆ (unclaiming_own did₅ rfl unclaiming₄)
        exact Conduct.meets_throw (givenBack_lasting.henceforth unclaiming₆.givenBack)
      · -- From here on there is a lease, and whatever comes of the work, the next thing is to give it back.
        have leased₆ : Leased k i ⟨key, token⟩ v₆ := leased_onward moved₆ (leased_of_granted unclaiming₄ did₅)
        have returns (v : Scene α (Except Failure τ)) (leased : Leased k i ⟨key, token⟩ v) :
            (fencing (α := α) k).Asks i v (Lease.giveBack ⟨key, token⟩) fun _ v =>
              (fencing (α := α) k).Henceforth i v fun v => GivenBack k i v.past := by
          intro v' moved _
          have leased' : Leased k i ⟨key, token⟩ v' := leased_onward moved leased
          refine ⟨fun touched => .inr ⟨token, ?_, ?_⟩, fun _ v'' did _ _ =>
            givenBack_lasting.henceforth (givenBack_of_returned leased' did)⟩
          · rw [← Option.some.inj touched]
            rfl
          · exact leased'.claimed (lockKey_injective (Option.some.inj touched))
        exact Conduct.meets_leased (Conduct.Meets.weaken
          (Conduct.meets_locked (leased_carries g key codec _) leased₆)
          (fun v _ _ => returns v) (fun v _ _ => returns v))

/-- A guarded call follows the rule of every lock, and has given its own back when it returns. Before it comes to its
key it only asks a bucket. -/
theorem safe_passage (g : Guard) (passage : Passage τ) (unclaiming : Unclaiming k i v.past) :
    (fencing (α := α) k).Safe i (fun v _ => GivenBack k i v.past) (passage.program g) v := by
  have safe : (fencing (α := α) k).Safe i
      (Conduct.either (fun v _ => GivenBack k i v.past) fun v _ => GivenBack k i v.past) (passage.program g) v := by
    refine Conduct.meets_passage g passage unclaiming_lasting unclaiming ?_ (fun _ _ _ => trivial) ?_
      (fun _ _ => Unclaiming.givenBack) ?_ (fun _ origin key _ _ _ unclaiming _ =>
        givenBack_once g passage.codec key origin unclaiming)
    · intro v c _ _ touched
      exact lockRule_apart (bucket_elsewhere touched k).2
    · intro v v' c reply unclaiming touched did
      exact unclaiming_own did (Fenced.idle_of_elsewhere (bucket_elsewhere touched k).2 reply _).unclaimed unclaiming
    · intro v admission _ unclaiming _
      refine Conduct.meets_work fun v' moved _ => ⟨trivial, fun answer v'' did _ _ => ?_⟩
      have given : GivenBack k i v''.past :=
        (unclaiming_own did rfl (unclaiming_onward moved unclaiming)).givenBack
      cases answer <;> exact givenBack_lasting.henceforth given
  refine Conduct.Safe.weaken safe ?_
  intro v answer _ given
  cases answer <;> exact given

end

/-- Nobody outside the crowd touches a lock. -/
def Move.SparesLocks {ω : Type} (move : Move ω) : Prop := ∀ key, move.Spares (lockKey key)

section

variable [TokenNumber α] {w w' : Crowd α (Except Failure τ) (Except Failure (Guarded τ))}

/-- In every course of guarded calls each lock is fenced, and each call goes on to give back what it got. This is one
conduct for each key, and a course keeps it because every caller follows it. -/
theorem passages_fenced (g : Guard) (passages : Nat → Passage τ) (callers : ∀ i, w.callers i = (passages i).program g)
    (distinct : w.store.entries.Distinct) (nobody : w.past = [])
    (free : ∀ key, w.store.live? w.now (lockKey key) = none)
    (course : Crowd.Course k (fun move _ _ => move.SparesLocks) w w') (key : String) :
    w'.store.entries.Distinct ∧ Fenced key (w'.scene key) ∧
      ∀ i, (fencing key).Safe i (fun v _ => GivenBack key i v.past) (w'.callers i) (w'.scene key) := by
  have spared : Crowd.Course key (fencing (α := α) (ω := Except Failure τ) key).fair w w' :=
    course.imp fun spares => spares key
  refine (fencing key).course_safe spared distinct (Fenced.start nobody (free key)) fun i => ?_
  rw [callers]
  refine safe_passage g (passages i) fun claim claimed => ?_
  simp [Crowd.scene, claims, nobody] at claimed

/-- Whatever the order of steps, whichever calls fail and whatever operations answer: a live record of a lock carries
the token of a call that has returned only if the call tried to give the lock back and that failed. And no step of a
call changes any lock as long as the call has not got one. -/
theorem returned_calls_hold_no_lock (g : Guard) (passages : Nat → Passage τ)
    (callers : ∀ i, w.callers i = (passages i).program g) (distinct : w.store.entries.Distinct) (nobody : w.past = [])
    (free : ∀ key, w.store.live? w.now (lockKey key) = none)
    (course : Crowd.Course k (fun move _ _ => move.SparesLocks) w w') :
    (∀ i outcome, w'.callers i = .done outcome → ∀ key e token time,
      w'.store.live? w'.now (lockKey key) = some e → e.text? = some token → ⟨i, time, .named token⟩ ∈ w'.past →
        ∃ note ∈ w'.past, note.caller = i ∧
          ∃ why, note.deed = .called (.deleteIfEquals (lockKey key) token) (.error why)) ∧
      ∀ i deed w'', w'.Step (.own i deed) w'' → (∀ key, Unclaiming key i w''.past) →
        ∀ key, w''.store.live? w''.now (lockKey key) = w'.store.live? w'.now (lockKey key) := by
  have fencedAt := passages_fenced g passages callers distinct nobody free course
  constructor
  · intro i outcome done key e token time shown carries named
    obtain ⟨-, fenced, safe⟩ := fencedAt key
    have ended := safe i
    rw [done] at ended
    have given : GivenBack key i w'.past := Conduct.Henceforth.here ended fenced
    exact failed_of_givenBack fenced given shown carries named
  · intro i deed w'' step unclaiming key
    obtain ⟨distinct', fenced, safe⟩ := fencedAt key
    exact lock_of_unclaiming step distinct' ((safe i).allowed fenced step) (unclaiming key)

end

/-- The look under the first lock fails, and the lock is given back. The second caller gets the lock, its operation
fails, and the lock can not be given back. -/
def stranded : List (Cue (Except Failure String)) :=
  [.call 0, .call 0, .call 0, .name 0 "a", .call 0, .fail 0 (.storeUnavailable "down"), .call 0,
    .call 1, .call 1, .name 1 "b", .call 1, .call 1, .work 1 (.error (.internal "declined")),
    .fail 1 (.storeUnavailable "down")]

/-- In that run the second caller's lock is still there when it has returned, because giving it back failed. -/
theorem returned_calls_hold_no_lock_stranded :
    ∃ w', (textVisitors "order-1").play "order-1"
        (fun move _ _ => move matches .own _ _) stranded = some w' ∧
      (w'.callers 0).lost?.map Failure.message = some (Failure.storeUnavailable "down").message ∧
      (w'.callers 1).lost?.map Failure.message = some (Failure.internal "declined").message ∧
      ∃ e, w'.store.live? w'.now (lockKey "order-1") = some e ∧ e.text? = some "b" ∧
        ∃ note ∈ w'.past, note.caller = 1 ∧
          ∃ why, note.deed = .called (.deleteIfEquals (lockKey "order-1") "b") (.error why) := by
  have played : ((textVisitors "order-1").play "order-1" (fun move _ _ => move matches .own _ _) stranded).map
      (fun w => ((w.callers 0).lost?.map Failure.message, (w.callers 1).lost?.map Failure.message,
        (w.store.live? w.now (lockKey "order-1")).bind Entry.text?,
        w.past.any fun note => note.caller = 1 && note.deed.isNamed "b")) =
      some (some (Failure.storeUnavailable "down").message, some (Failure.internal "declined").message, some "b",
        true) := by decide +kernel
  obtain ⟨w', is, shown⟩ := Option.map_eq_some_iff.mp played
  simp only [Prod.mk.injEq] at shown
  obtain ⟨lost₀, lost₁, carries, named⟩ := shown
  obtain ⟨e, live, text⟩ := Option.bind_eq_some_iff.mp carries
  obtain ⟨why, lost, -⟩ := Option.map_eq_some_iff.mp lost₁
  have course : Crowd.Course "order-1" (fun move _ _ => move.SparesLocks) (textVisitors "order-1") w' := by
    refine Crowd.course_of_play (fun move _ _ own => ?_) is
    cases move with
    | own i deed => exact fun _ => trivial
    | _ => cases own
  obtain ⟨⟨i, time, deed⟩, noted, mine⟩ := List.any_eq_true.mp named
  have made : i = 1 ∧ deed = .named "b" := by
    simp only [Bool.and_eq_true, decide_eq_true_eq] at mine
    refine ⟨mine.1, ?_⟩
    cases deed with
    | named name => exact congrArg _ (of_decide_eq_true mine.2)
    | _ => cases mine.2
  obtain ⟨rfl, rfl⟩ := made
  obtain ⟨gives, -⟩ := returned_calls_hold_no_lock briefGuard (fun _ => textVisit.passage "order-1") (fun _ => rfl)
    Table.distinct_empty rfl (fun _ => rfl) course
  exact ⟨w', is, lost₀, lost₁, e, live, text,
    gives 1 _ (Program.done_of_lost lost) "order-1" e "b" time live text noted⟩

end Turnstile
