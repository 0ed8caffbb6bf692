import Mathlib.Data.Rat.Floor
import Mathlib.Tactic.FieldSimp
import Mathlib.Tactic.Linarith
import Mathlib.Tactic.Ring
import Turnstile.Bucket
import Turnstile.Proofs.Limit

/-!
Buckets that count exactly.

Token counts can be rational numbers in place of machine numbers. Then a refill brings exactly the elapsed share of
a period's tokens, and what a bucket holds at a moment is a formula: the tokens it had, and what time has brought,
held within the capacity. Asking for tokens removes what was granted from that number and nothing else. A bucket is
kept for so long that it is full when it is given up.

Nothing here says how far machine numbers are from these.
-/

namespace Turnstile

/-- Exact token counts. -/
instance : TokenNumber ℚ where
  ofNat n := n
  add a b := a + b
  sub a b := a - b
  mul a b := a * b
  div a b := a / b
  least a b := min a b
  atMost a b := decide (a ≤ b)
  floorWithin bound q := min bound ⌊q⌋.toNat
  ceilWithin bound q := min bound ⌈q⌉.toNat

/-- Seconds with a fraction are nanoseconds over a billion, since the whole seconds and the rest are added up exactly. -/
theorem secondsNumber_exact (nanos : Nat) : (secondsNumber nanos : ℚ) = nanos / nanosPerSecond := by
  have whole : nanosPerSecond * (nanos / nanosPerSecond) + nanos % nanosPerSecond = nanos := Nat.div_add_mod _ _
  have whole' : (nanosPerSecond : ℚ) * (nanos / nanosPerSecond : Nat) + (nanos % nanosPerSecond : Nat) = nanos := by
    exact_mod_cast whole
  have positive : (nanosPerSecond : ℚ) ≠ 0 := by norm_num [nanosPerSecond]
  change ((nanos / nanosPerSecond : Nat) : ℚ) + (nanos % nanosPerSecond : Nat) / (nanosPerSecond : Nat) = _
  field_simp
  linarith

namespace Limit

/-- Tokens gained in a nanosecond. -/
def speed (l : Limit) : ℚ := l.refill.toNat / l.period.nanos

/-- Time takes no tokens away: neither a refill nor a period is below zero. -/
theorem speed_nonneg (l : Limit) : 0 ≤ l.speed := by unfold speed; positivity

/-- While a bucket is kept, an empty one fills up. It is kept for whole periods, each brings a refill, and as many as
those bring at least the capacity. -/
theorem keep_fills {l : Limit} (usable : l.fault? = none) {span : Span} (kept : l.keep = .ok span) :
    (l.capacity.toNat : ℚ) ≤ span.nanos * l.speed := by
  obtain ⟨refills, lasts⟩ := usable_pos usable
  have long : span.nanos = l.period.nanos * l.keptPeriods := Span.times?_nanos (keep_periods kept)
  have filled : (l.capacity.toNat : ℚ) ≤ l.keptPeriods * l.refill.toNat := by
    exact_mod_cast capacity_le_kept refills
  have lasts' : (l.period.nanos : ℚ) ≠ 0 := by exact_mod_cast Nat.pos_iff_ne_zero.mp lasts
  calc (l.capacity.toNat : ℚ) ≤ l.keptPeriods * l.refill.toNat := filled
    _ = span.nanos * l.speed := by
      unfold speed
      rw [long]
      push_cast
      field_simp

end Limit

/-- What a grant takes of a cost. -/
def Grant.paid (g : Grant) (cost : UInt32) : Nat := if g.granted then cost.toNat else 0

namespace Bucket

/-- What a bucket holds at a moment. -/
def holds (b : Bucket ℚ) (l : Limit) (now : Moment) : ℚ :=
  min l.capacity.toNat (b.tokens + ((now.nanos : ℚ) - b.asOf.nanos) * l.speed)

/-- A bucket as a limit leaves it: looked at in the past, with no more than the capacity in it. -/
structure InOrder (b : Bucket ℚ) (l : Limit) (now : Moment) : Prop where
  past : b.asOf ≤ now
  nonneg : 0 ≤ b.tokens
  within : b.tokens ≤ l.capacity.toNat

variable {b b' : Bucket ℚ} {l : Limit} {now : Moment}

/-- A full bucket is in order: it is looked at now and holds exactly the capacity. -/
theorem full_inOrder (l : Limit) (now : Moment) : (full l now : Bucket ℚ).InOrder l now where
  past := Nat.le_refl _
  nonneg := Nat.cast_nonneg (α := ℚ) l.capacity.toNat
  within := le_refl (l.capacity.toNat : ℚ)

/-- A bucket in order stays so as time passes, which does nothing but put the last look at it further into the past. -/
theorem InOrder.later (order : b.InOrder l now) {later : Moment} (ahead : now ≤ later) : b.InOrder l later where
  past := Nat.le_trans order.past ahead
  nonneg := order.nonneg
  within := order.within

/-- A full bucket holds the capacity, for no time has passed that could bring more. -/
theorem full_holds (l : Limit) (now : Moment) : (full l now).holds l now = l.capacity.toNat := by
  change min (l.capacity.toNat : ℚ) ((l.capacity.toNat : ℚ) + ((now.nanos : ℚ) - now.nanos) * l.speed) = _
  rw [sub_self, zero_mul, add_zero, min_self]

/-- A bucket in order never holds less than nothing. It starts with no less, and time only adds to it. -/
theorem holds_nonneg (order : b.InOrder l now) : 0 ≤ b.holds l now := by
  have past : (b.asOf.nanos : ℚ) ≤ now.nanos := by exact_mod_cast order.past
  have gained : 0 ≤ ((now.nanos : ℚ) - b.asOf.nanos) * l.speed := mul_nonneg (by linarith) l.speed_nonneg
  exact le_min (Nat.cast_nonneg _) (by linarith [order.nonneg])

/-- What time brings in two parts it brings at once: the capacity cuts off the same, because a bucket that was cut off
once would be cut off again. -/
theorem holds_from (b : Bucket ℚ) (l : Limit) {later : Moment} (ahead : now ≤ later) :
    b.holds l later = min (l.capacity.toNat : ℚ) (b.holds l now + ((later.nanos : ℚ) - now.nanos) * l.speed) := by
  have ahead' : (now.nanos : ℚ) ≤ later.nanos := by exact_mod_cast ahead
  have gained : 0 ≤ ((later.nanos : ℚ) - now.nanos) * l.speed := mul_nonneg (by linarith) l.speed_nonneg
  have parts : b.tokens + ((later.nanos : ℚ) - b.asOf.nanos) * l.speed =
      b.tokens + ((now.nanos : ℚ) - b.asOf.nanos) * l.speed + ((later.nanos : ℚ) - now.nanos) * l.speed := by ring
  have capped : (l.capacity.toNat : ℚ) ≤ l.capacity.toNat + ((later.nanos : ℚ) - now.nanos) * l.speed := by linarith
  unfold holds
  rw [parts, min_add, ← min_assoc, min_eq_left capped]

/-- Where the clock has moved on, a refill adds what that has brought, up to the capacity. Seconds over seconds are
nanoseconds over nanoseconds, so the elapsed share of a period is exact. -/
theorem refill_moved (lasts : 0 < l.period.nanos) (moved : now.since b.asOf ≠ 0) :
    b.refill l now = ⟨min (b.tokens + (now.since b.asOf : ℕ) * l.speed) l.capacity.toNat, now⟩ := by
  have lasts' : (l.period.nanos : ℚ) ≠ 0 := by exact_mod_cast Nat.pos_iff_ne_zero.mp lasts
  have positive : (nanosPerSecond : ℚ) ≠ 0 := by norm_num [nanosPerSecond]
  have gained : (secondsNumber (now.since b.asOf) : ℚ) / secondsNumber l.period.nanos * l.refill.toNat =
      (now.since b.asOf : ℕ) * l.speed := by
    rw [secondsNumber_exact, secondsNumber_exact]
    unfold Limit.speed
    field_simp
  unfold refill
  rw [if_neg moved, ← gained]
  rfl

/-- A refill brings a bucket up to what it holds. If the clock has not moved, the bucket is left as it is, and it held
no more than the capacity then. -/
theorem refill_exact (usable : l.fault? = none) (order : b.InOrder l now) :
    b.refill l now = ⟨b.holds l now, now⟩ := by
  obtain ⟨-, lasts⟩ := Limit.usable_pos usable
  have past : b.asOf.nanos ≤ now.nanos := order.past
  by_cases still : now.since b.asOf = 0
  · have same : b.asOf = now := by
      unfold Moment.since at still
      have : b.asOf.nanos = now.nanos := by omega
      cases asOf : b.asOf; cases now; simp_all
    have refilled : b.refill l now = b := if_pos still
    rw [refilled]
    unfold holds
    rw [same, sub_self, zero_mul, add_zero, min_eq_right order.within, ← same]
  · rw [refill_moved lasts still]
    unfold holds Moment.since
    rw [Nat.cast_sub past, min_comm]

/-- Buckets that hold as much answer alike and are left alike, however long ago each was looked at: a refill makes them
one bucket, and everything after it looks at that. -/
theorem take_of_holds (usable : l.fault? = none) (order : b.InOrder l now) (order' : b'.InOrder l now)
    (level : b.holds l now = b'.holds l now) (cost : UInt32) : b.take l cost now = b'.take l cost now := by
  have refilled : b.refill l now = b'.refill l now := by
    rw [refill_exact usable order, refill_exact usable order', level]
  unfold take
  rw [refilled]

/-- Asking removes what is granted from what the bucket holds, and leaves it in order. A grant takes the cost, which is
covered, and a refusal takes nothing. -/
theorem take_exact (usable : l.fault? = none) (order : b.InOrder l now) {cost : UInt32} {grant : Grant}
    (taken : b.take l cost now = (b', .ok grant)) :
    b'.InOrder l now ∧ b'.asOf = now ∧ b'.tokens + grant.paid cost = b.holds l now := by
  unfold take at taken
  rw [refill_exact usable order] at taken
  obtain ⟨spent, reported⟩ := Prod.mk.inj taken
  have held : 0 ≤ b.holds l now := holds_nonneg order
  have within : b.holds l now ≤ l.capacity.toNat := min_le_left _ _
  have granted : grant.granted = (⟨b.holds l now, now⟩ : Bucket ℚ).covers cost := by
    unfold report at reported
    split at reported
    · cases reported
    · injection reported with same
      rw [← same]
  have covers : (⟨b.holds l now, now⟩ : Bucket ℚ).covers cost = decide ((cost.toNat : ℚ) ≤ b.holds l now) := rfl
  unfold spend at spent
  unfold Grant.paid
  rw [granted]
  by_cases enough : (cost.toNat : ℚ) ≤ b.holds l now
  · simp only [covers, enough, decide_true, if_true] at spent ⊢
    subst spent
    have costs : (0 : ℚ) ≤ cost.toNat := Nat.cast_nonneg _
    change InOrder ⟨b.holds l now - cost.toNat, now⟩ l now ∧ now = now ∧
      b.holds l now - cost.toNat + (cost.toNat : ℚ) = b.holds l now
    have nonneg : 0 ≤ b.holds l now - cost.toNat := sub_nonneg.mpr enough
    have within' : b.holds l now - cost.toNat ≤ l.capacity.toNat := by linarith
    exact ⟨{ past := Nat.le_refl _, nonneg := nonneg, within := within' }, rfl, by ring⟩
  · simp only [covers, enough, decide_false, Bool.false_eq_true, if_false] at spent ⊢
    subst spent
    exact ⟨{ past := Nat.le_refl _, nonneg := held, within := within }, rfl, by simp⟩

end Bucket

end Turnstile
