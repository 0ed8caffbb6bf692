import Turnstile.Admission
import Turnstile.Program.Play

/-!
Admission as one call.

Where the limit can be used and the cost can be met, asking for admission is one take from the bucket and what its answer
decides. Everything else about admission is read off this form.
-/

namespace Turnstile

namespace Throttle

variable {ω σ : Type} {t : Throttle} {key : BucketKey} {p : Policy}

/-- What the answer of the bucket decides. -/
def verdict (t : Throttle) (p : Policy) : Except Failure Grant → Program ω (Except Failure Admission)
  | .error failure => .done (if t.letsThrough failure then .ok (unlimited p.limit.capacity) else .error failure)
  | .ok grant =>
    if grant.granted then .done (.ok (t.admission p grant))
    else
      match retryAfter grant.wait with
      | .ok seconds => .done (.error (.rateLimited seconds))
      | .error why => .broken none why

/-- A usable limit asks its bucket once, and the bucket's answer decides. The cost is compared with the capacity and the
limit is checked before that call, and both go well here. -/
theorem pass_run (usable : p.limit.fault? = none) (coverable : p.cost ≤ p.limit.capacity) :
    (t.pass key p : Attempt ω Admission).run = .call none (.take key.text p.limit p.cost) (t.verdict p) := by
  have allowed : ¬ p.limit.capacity < p.cost := UInt32.not_lt.mpr coverable
  unfold pass consume
  rw [if_neg allowed, usable]
  apply congrArg (Program.call none _)
  funext reply
  rcases reply with failure | grant
  · change (if t.letsThrough failure then (pure (unlimited p.limit.capacity) : Attempt ω Admission)
      else throw failure).run = _
    unfold verdict
    dsimp only
    cases t.letsThrough failure <;> rfl
  · change (if grant.granted then (pure (t.admission p grant) : Attempt ω Admission)
      else do throw (.rateLimited (← Attempt.ofBreakdown (retryAfter grant.wait)))).run = _
    unfold verdict
    dsimp only
    cases grant.granted
    · cases retryAfter grant.wait <;> rfl
    · rfl

/-- Whoever is told that something is misconfigured has been told so by the store. No verdict of a caller's own says
that, so the answer of the one call is passed on. -/
theorem misconfigured_of_store (usable : p.limit.fault? = none) (coverable : p.cost ≤ p.limit.capacity)
    {host : Host σ ω} {s : σ} {why : String}
    (told : ((t.pass key p : Attempt ω Admission).run.play host s).2 = .finished (.error (.misconfigured why))) :
    (host.call (.take key.text p.limit p.cost) s).2 = .ok (.error (.misconfigured why)) := by
  rw [pass_run usable coverable] at told
  unfold Program.play at told
  rcases answered : host.call (.take key.text p.limit p.cost) s with ⟨s', why' | failure | grant⟩
  · rw [answered] at told
    cases told
  · rw [answered] at told
    simp only [verdict, Program.play] at told
    split at told
    · cases told
    · cases told
      rfl
  · rw [answered] at told
    simp only [verdict] at told
    split at told
    · cases told
    · split at told <;> cases told

end Throttle

end Turnstile
