import Turnstile.Proofs.Crowd.Play
import Turnstile.Proofs.Lock.Fencing

/-!
Locks exclude, and late holders do no harm.

Any number of callers try once for the lock of one key, each with a life of its own. Whoever gets a lease spends
it: it works for as long as it likes and gives the lease back, at once, late, or never, which also stands for a
lease that is dropped and given back in the background. Other callers do anything at all other keys of the
store. A caller gets the lock exactly when every earlier claim on it has been given back or has run out, the
record of a lock that is held carries the token of whoever got it last, and a lease that has run out takes
nothing away when it is given back.
-/

namespace Turnstile

variable {α ω : Type}

namespace Lease

/-- Works under a lease, then gives it back. -/
def spend (l : Lease) : Attempt ω Unit := do
  let _ ← Attempt.wrapped.holding l
  l.release

/-- Tries once for the lock of a key and spends the lease. Answers the lease. -/
def use (key : String) (life : Span) : Attempt ω (Option Lease) := do
  match ← acquire key life with
  | none => return none
  | some lease =>
    lease.spend
    return some lease

/-- What is left to do when the store has answered the try. -/
def spent (lease : Lease) : Except Failure Bool → Program ω (Except Failure (Option Lease))
  | .ok true => .work (some lease) fun _ => .call none lease.giveBack fun _ => .done (.ok (some lease))
  | _ => .done (.ok none)

/-- The steps of a try for a lock: a name, the call that claims with it, and what is done with the answer. -/
theorem use_run (key : String) (life : Span) :
    (use key life : Attempt ω _).run =
      .fresh fun token => .call none (.setIfAbsent (lockKey key) token life) (spent ⟨key, token⟩) := by
  change Program.fresh _ = Program.fresh _
  congr 1
  funext token
  change Program.call none _ _ = Program.call none _ _
  congr 1
  funext reply
  rcases reply with why | _ | _ <;> rfl

/-- A caller that tries for a lock goes on by the store's answer. There is only one place in its program where it
claims, and so what is left behind it is known. -/
theorem spent_of_leaves {key token : String} {life life' : Span} {held : Option Lease}
    {next : Except Failure Bool → Program ω (Except Failure (Option Lease))}
    (left : (use key life : Attempt ω _).run.Leaves (.call held (.setIfAbsent (lockKey key) token life') next)) :
    next = spent ⟨key, token⟩ ∧ life' = life := by
  rw [use_run] at left
  cases left with
  | named _ name _ rest =>
    cases rest with
    | all => exact ⟨rfl, rfl⟩
    | answered _ _ _ reply _ rest =>
      rcases reply with why | _ | _
      · cases rest
      · cases rest
      · cases rest with
        | worked _ _ _ _ rest =>
          cases rest with
          | answered _ _ _ _ _ rest => cases rest

end Lease

/-- The conduct around a lock: everybody follows its rule, and nobody outside touches it. -/
def fencing [TokenNumber α] (k : String) : Conduct α ω where
  key := k
  fair move _ _ := move.Spares (lockKey k)
  inv := Fenced k
  may := LockRule k
  rely := Scene.Onward
  onward _ _ _ moved := moved
  rely_refl := Scene.Onward.refl
  rely_trans _ _ _ _ := Scene.Onward.trans
  own _ _ _ _ fenced rule did _ := ⟨fenced.own rule did, fun _ other => did.onward other⟩
  outside _ _ _ fenced moved spares := ⟨fenced.outside spares moved, fun _ => moved.onward⟩
  waited _ _ fenced ahead _ := ⟨fenced.waited ahead, fun _ => Scene.onward_waited ahead⟩
  broke _ _ _ _ _ _ _ _ _ _ _ _ := trivial

section

variable [TokenNumber α] {k : String} {v : Scene α ω} {i : Nat}

/-- Whoever tries for the lock and spends the lease follows the rule: it claims with the name it has just made up, and
gives back what it was granted. -/
theorem safe_use (life : Span) :
    (fencing k).Safe i (fun _ _ => True) (Lease.use k life : Attempt ω _).run v := by
  rw [Lease.use_run]
  intro v moved fenced
  refine ⟨trivial, fun token v₁ did _ _ => ?_⟩
  have fresh : Fresh k i token v₁ := fenced.fresh_of_named did
  intro v₂ moved _
  refine ⟨fun _ => .inl ⟨token, life, rfl, Fenced.fresh_onward moved fresh⟩, fun reply v₃ did _ _ => ?_⟩
  rcases reply with why | _ | _
  · exact fun _ _ _ => trivial
  · exact fun _ _ _ => trivial
  · have claimed : Claimed k i token v₃ := Fenced.claimed_of_granted did
    intro v₄ moved _
    refine ⟨trivial, fun _ v₅ did _ _ => ?_⟩
    have claimed : Claimed k i token v₅ := by
      obtain ⟨claim, here, is⟩ := Fenced.claimed_onward moved claimed
      exact ⟨claim, by rw [did.past, Fenced.claims_cons _ rfl]; exact here, is⟩
    intro v₆ moved _
    exact ⟨fun _ => .inr ⟨token, rfl, Fenced.claimed_onward moved claimed⟩, fun _ _ _ _ _ _ _ _ => trivial⟩

/-- The store grants a claim exactly when no open claim is still running. It is refused if there is a live entry, which
is the last claim's, and that one is open and has not ended. -/
theorem granted_iff {v' : Scene α ω} {token : String} {life : Span} {reply : Bool} (fenced : Fenced k v)
    (live : ∀ e, v.lock = some e → v.now < e.expires)
    (did : Scene.Own k i (.called (.setIfAbsent (lockKey k) token life) (.ok reply)) v v') :
    reply = true ↔ ∀ claim ∈ claims k v.past, claim.isOpen k v.past = true → claim.ends ≤ v.now.nanos := by
  obtain ⟨e, decided, _⟩ := Deed.changes_at rfl did.lock
  have shows := fenced.shows
  cases reply with
  | true =>
    rw [(Call.onEntry_set_true decided).1] at shows
    exact ⟨fun _ => shows, fun _ => rfl⟩
  | false =>
    constructor
    · intro granted
      cases granted
    · intro ended
      obtain ⟨entry, held⟩ := Option.isSome_iff_exists.mp (Call.onEntry_set_false decided).1
      rw [held] at shows
      obtain ⟨last, rest, all, isOpen, is, _⟩ := shows
      have running : v.now < entry.expires := live entry held
      have run : last.ends ≤ v.now.nanos := ended last (by rw [all]; exact List.mem_cons_self) isOpen
      rw [is] at running
      exact absurd run (Nat.not_le.mpr running)

/-- Giving back a lease that has run out changes nothing. Were the token in the lock still, the entry would be that
claim's and would have expired with it. -/
theorem givenBack_late {v' : Scene α ω} {token : String} {reply : Except Failure Bool} (fenced : Fenced k v)
    (live : ∀ e, v.lock = some e → v.now < e.expires)
    (late : ∀ claim ∈ claims k v.past, claim.token = token → claim.ends ≤ v.now.nanos)
    (did : Scene.Own k i (.called (.deleteIfEquals (lockKey k) token) reply) v v') : v'.lock = v.lock := by
  cases reply with
  | error why => exact did.lock
  | ok reply =>
    obtain ⟨e, decided, shown⟩ := Deed.changes_at rfl did.lock
    have shows := fenced.shows
    cases reply with
    | true =>
      obtain ⟨expected, _⟩ := Call.onEntry_remove_true decided
      cases held : v.lock with
      | none => rw [held] at expected; cases expected
      | some entry =>
        rw [held] at shows expected
        obtain ⟨last, rest, all, _, is, _⟩ := shows
        rw [is] at expected
        have ended := late last (by rw [all]; exact List.mem_cons_self) (Option.some.inj expected)
        have running : v.now < entry.expires := live entry held
        rw [is] at running
        exact absurd ended (Nat.not_le.mpr running)
    | false =>
      rw [shown, (Call.onEntry_remove_false decided).2]
      cases held : v.lock with
      | none => rfl
      | some entry =>
        have running : v.now < entry.expires := live entry held
        rw [Option.filter_some]
        exact if_pos (decide_eq_true running)

/-- Whatever the order of steps: a try is granted exactly when no earlier claim that is still open is running,
and only then the caller has a lease to spend, so that at most one claim is running; the live record of the lock
is that of the last claim; and giving back a lease that has run out changes nothing. -/
theorem locks_exclude_and_fence {w w' : Crowd α ω (Except Failure (Option Lease))} (lives : Nat → Span)
    (callers : ∀ i, w.callers i = (Lease.use k (lives i)).run) (distinct : w.store.entries.Distinct)
    (nobody : w.past = []) (free : w.store.live? w.now (lockKey k) = none)
    (course : Crowd.Course k (fun move _ _ => move.Spares (lockKey k)) w w') :
    (∀ i token reply w'',
      w'.Step (.own i (.called (.setIfAbsent (lockKey k) token (lives i)) (.ok reply))) w'' →
        w''.callers i = Lease.spent ⟨k, token⟩ (.ok reply) ∧
          (reply = true ↔ ∀ claim ∈ claims k w'.past, claim.isOpen k w'.past = true →
            claim.ends ≤ w'.now.nanos)) ∧
      (∀ claim ∈ claims k w'.past, ∀ other ∈ claims k w'.past, claim.isOpen k w'.past = true →
        other.isOpen k w'.past = true → w'.now.nanos < claim.ends → w'.now.nanos < other.ends →
          claim = other) ∧
      (∀ e, w'.store.live? w'.now (lockKey k) = some e →
        ∃ claim rest, claims k w'.past = claim :: rest ∧ e = claim.entry) ∧
      ∀ i token reply w'', w'.Step (.own i (.called (.deleteIfEquals (lockKey k) token) reply)) w'' →
        (∀ claim ∈ claims k w'.past, claim.token = token → claim.ends ≤ w'.now.nanos) →
          w''.store.live? w''.now (lockKey k) = w'.store.live? w'.now (lockKey k) := by
  have safe (i : Nat) : (fencing k).Safe i (fun _ _ => True) (w.callers i) (w.scene k) := by
    rw [callers]
    exact safe_use (lives i)
  obtain ⟨apart, (fenced : Fenced k (w'.scene k)), _⟩ :=
    (fencing k).course_safe course distinct (Fenced.start nobody free) safe
  have live (e : Entry α) (shown : (w'.scene k).lock = some e) : (w'.scene k).now < e.expires :=
    Store.live?_of_live shown
  refine ⟨?_, fun claim here other there => fenced.running_unique here there, ?_, ?_⟩
  · intro i token reply w'' step
    have did := (step.moves apart k).1
    refine ⟨?_, granted_iff fenced live did⟩
    have left := course.leaves i
    cases step with
    | answered _ held _ next store _ ready _ =>
      rw [callers, ready] at left
      obtain ⟨is, _⟩ := Lease.spent_of_leaves left
      simp only [Crowd.after, Function.update_self, is]
  · intro e shown
    have shows : LockShows k w'.past w'.now (w'.store.live? w'.now (lockKey k)) := fenced.shows
    rw [shown] at shows
    obtain ⟨claim, rest, all, _, is, _⟩ := shows
    exact ⟨claim, rest, all, is⟩
  · intro i token reply w'' step late
    exact givenBack_late fenced live late (step.moves apart k).1

end

/-- Callers that all want the lock of one key for five seconds. -/
def rivals : Crowd Binary64 Unit (Except Failure (Option Lease)) :=
  .atEmptyStore fun _ => (Lease.use "order-1" (.ofSeconds 5)).run

/-- The first caller outlives its lease, the second gets the lock, and then the first gives its own back. -/
def lateRelease : List (Cue Unit) :=
  [.name 0 "first", .call 0, .name 1 "second", .call 1, .wait 6000000000, .name 2 "third", .call 2, .work 0 (),
    .call 0]

/-- In that run the lock is the third caller's, although the first one has given its lease back after that had run out. -/
theorem locks_fence_lateRelease :
    ∃ w', rivals.play "order-1" (fun move _ _ => decide (move.Spares (lockKey "order-1"))) lateRelease = some w' ∧
      ∃ e claim rest, w'.store.live? w'.now (lockKey "order-1") = some e ∧ e = claim.entry ∧
        claims "order-1" w'.past = claim :: rest ∧ claim.caller = 2 := by
  have played : ((rivals.play "order-1" (fun move _ _ => decide (move.Spares (lockKey "order-1"))) lateRelease).map
      fun w => ((w.store.live? w.now (lockKey "order-1")).isSome, (claims "order-1" w.past).map Claim.caller)) =
        some (true, [2, 0]) := by decide +kernel
  obtain ⟨w', is, shown⟩ := Option.map_eq_some_iff.mp played
  obtain ⟨held, callers⟩ := Prod.mk.inj shown
  obtain ⟨e, live⟩ := Option.isSome_iff_exists.mp held
  have course : Crowd.Course "order-1" (fun move _ _ => move.Spares (lockKey "order-1")) rivals w' :=
    Crowd.course_of_play (fun _ _ _ => of_decide_eq_true) is
  obtain ⟨_, _, last, _⟩ := locks_exclude_and_fence (fun _ => .ofSeconds 5) (fun _ => rfl) Table.distinct_empty
    rfl rfl course
  obtain ⟨claim, rest, all, same⟩ := last e live
  refine ⟨w', is, e, claim, rest, live, same, all, ?_⟩
  rw [all] at callers
  exact (List.cons.inj callers).1

end Turnstile
