import Turnstile.Guard
import Turnstile.Proofs.Crowd.Through

/-!
Guarded calls that see the answers of their operation through a function.

Of all that a guarded call does, only the operation itself depends on what the answers are. So when the operation is
an attempt that sees through a function, the guarded call around it is the call around that attempt.
-/

namespace Turnstile

variable {ω ω' τ : Type} {see : ω → ω'}

/-- Admission does not look at the operation, so it is the same through any function on what the operation answers. -/
theorem through_pass (t : Throttle) (key : BucketKey) (p : Policy) :
    (t.pass key p : Attempt ω' Admission).through see = t.pass key p := by
  unfold Throttle.pass
  simp only
  split
  · rfl
  · refine Attempt.through_bind (Attempt.through_caught ?_) fun outcome => ?_
    · unfold Throttle.consume
      split <;> rfl
    · cases outcome with
      | error failure =>
        simp only
        split <;> rfl
      | ok grant =>
        simp only
        split
        · rfl
        · exact Attempt.through_bind (Attempt.through_ofBreakdown _) fun _ => rfl

/-- Nor does the check of a key, which makes no call at all. -/
theorem through_checkKey (key : String) :
    (Registry.checkKey key : Attempt ω' Unit).through see = Registry.checkKey key := by
  unfold Registry.checkKey
  split <;> rfl

/-- Nor does a look at the record: there is one call, and then the text is read. -/
theorem through_find (r : Registry) (key : String) : (r.find? key : Attempt ω' _).through see = r.find? key :=
  Attempt.through_bind rfl fun _ => rfl

/-- Nor does a resolution, on any of its ways from the swap to the last look. -/
theorem through_resolve (r : Registry) (key : String) (value : Json.Value) :
    (r.resolve key value : Attempt ω' Resolution).through see = r.resolve key value := by
  refine Attempt.through_bind rfl fun replaced => ?_
  cases replaced with
  | true => rfl
  | false =>
    refine Attempt.through_bind (through_find r key) fun found => ?_
    match found with
    | some (.resolved other) => rfl
    | some .pending => rfl
    | none =>
      refine Attempt.through_bind rfl fun created => ?_
      cases created with
      | true => rfl
      | false =>
        refine Attempt.through_bind (through_find r key) fun found => ?_
        match found with
        | some (.resolved other) => rfl
        | some .pending => rfl
        | none => rfl

/-- Nor does a try for the lock, whether it is granted, refused or fails. -/
theorem through_acquire (key : String) (life : Span) :
    (Lease.acquire key life : Attempt ω' _).through see = Lease.acquire key life := by
  refine Attempt.through_bind rfl fun token => Attempt.through_bind rfl fun reply => ?_
  rcases reply with why | _ | _ <;> rfl

/-- Nor does giving a lease back. -/
theorem through_release (lease : Lease) : (lease.release : Attempt ω' Unit).through see = lease.release :=
  Attempt.through_bind rfl fun _ => rfl

/-- So a look at the key does not either: it is a look at the record and, for a new key, the call that creates it. -/
theorem through_kept (g : Guard) (key : String) (origin : KeyOrigin) :
    (g.kept key origin : Attempt ω' _).through see = g.kept key origin := by
  refine Attempt.through_bind (through_find g.registry key) fun found => ?_
  match found with
  | some (.resolved value) => rfl
  | some .pending => rfl
  | none =>
    refine Attempt.through_bind ?_ fun _ => rfl
    cases origin with
    | client => exact Attempt.through_bind rfl fun _ => rfl
    | server => rfl

variable {operation' : Attempt ω' τ} {operation : Attempt ω τ} (g : Guard) (c : Codec τ)

/-- Of what is done under the lock only the operation sees through the function. The look before it and what is done
with the result behind it are the same. -/
theorem through_locked (key : String) (origin : KeyOrigin) (same : operation'.through see = operation) :
    (g.locked c key origin operation').through see = g.locked c key origin operation := by
  refine Attempt.through_bind (through_kept g key origin) fun found => ?_
  cases found with
  | some value => exact Attempt.through_bind rfl fun _ => rfl
  | none =>
    refine Attempt.through_bind same fun result => Attempt.through_bind rfl fun value => ?_
    refine Attempt.through_bind (through_resolve g.registry key value) fun resolution => ?_
    cases resolution with
    | stored => rfl
    | alreadyResolved other => exact Attempt.through_bind rfl fun _ => rfl

/-- The same holds of an admitted call on an idempotent route, as the lock around it does not look at the operation. -/
theorem through_once (key : String) (origin : KeyOrigin) (same : operation'.through see = operation) :
    (g.once c key origin operation').through see = g.once c key origin operation := by
  refine Attempt.through_bind (through_kept g key origin) fun found => ?_
  cases found with
  | some value => exact Attempt.through_bind rfl fun _ => rfl
  | none =>
    refine Attempt.through_bind (through_acquire key g.lockLife) fun lease => ?_
    cases lease with
    | none => rfl
    | some lease =>
      have locked := Attempt.through_holding (through_locked g c key origin same) lease
      refine Attempt.through_bind (Attempt.through_caught locked) fun outcome => ?_
      exact Attempt.through_bind (through_release lease) fun _ => rfl

/-- And so it holds of a guarded call as a whole: around an operation that sees through a function it is what it is
around the operation itself. -/
theorem through_run (i : Invocation) (same : operation'.through see = operation) :
    (g.run c i operation').through see = g.run c i operation := by
  refine Attempt.through_bind (through_pass g.throttle i.bucket i.policy) fun admission => ?_
  cases i.policy.origin with
  | none => exact Attempt.through_bind same fun _ => rfl
  | some origin =>
    cases i.key with
    | none => rfl
    | some key =>
      refine Attempt.through_bind (through_checkKey key) fun _ => ?_
      exact Attempt.through_bind (through_once g c key origin same) fun _ => rfl

end Turnstile
