import Turnstile.Proofs.Binary64

/-!
How long a limit makes one wait.

Both spans that a limit is asked for are whole numbers of its periods. A bucket is kept for at least as many periods
as an empty one needs to fill up, and nobody waits for more of them than that: where the one span is within the
bound of spans, so is the other.
-/

namespace Turnstile

namespace Span

/-- A number of spans, where it is one, lasts that number of times as long. -/
theorem times?_nanos {s long : Span} {count : Nat} (is : s.times? count = some long) :
    long.nanos = s.nanos * count := by
  unfold times? ofNanos? at is
  split_ifs at is with inside
  cases is
  rfl

/-- Where a number of spans is within the bound, so are fewer of them, for they last no longer. -/
theorem times?_fewer {s long : Span} {count fewer : Nat} (is : s.times? count = some long) (less : fewer ≤ count) :
    ∃ short, s.times? fewer = some short := by
  have inside : s.nanos * fewer < spanSecondsLimit * nanosPerSecond :=
    lt_of_le_of_lt (Nat.mul_le_mul_left _ less) (times?_nanos is ▸ long.bounded)
  exact ⟨⟨s.nanos * fewer, inside⟩, dif_pos inside⟩

end Span

namespace Limit

variable {l : Limit}

/-- A usable limit has a refill and a period. Both are checked, and the first zero that is met is the fault. -/
theorem usable_pos (usable : l.fault? = none) : 0 < l.refill.toNat ∧ 0 < l.period.nanos := by
  unfold fault? at usable
  by_cases noRefill : l.refill = 0
  · by_cases noCapacity : l.capacity = 0 <;> simp [noRefill, noCapacity] at usable
  · by_cases noPeriod : l.period.nanos = 0
    · by_cases noCapacity : l.capacity = 0 <;> simp [noRefill, noCapacity, noPeriod, Span.isZero] at usable
    · have refills : l.refill.toNat ≠ 0 := fun nothing => noRefill (UInt32.toNat_inj.mp nothing)
      omega

/-- For how many periods an untouched bucket is kept. -/
def keptPeriods (l : Limit) : Nat := min (l.fillPeriods + 1) maxCount

/-- Where a bucket can be kept, it is kept for its number of periods. -/
theorem keep_periods {span : Span} (kept : l.keep = .ok span) : l.period.times? l.keptPeriods = some span := by
  unfold keep at kept
  split at kept
  · cases kept
    assumption
  · cases kept

/-- As many periods as a bucket is kept for bring at least the capacity. The periods that fill it are enough, and if
they are cut to the greatest count, then the refill is one at least and no capacity is greater than that count. -/
theorem capacity_le_kept (refills : 0 < l.refill.toNat) : l.capacity.toNat ≤ l.keptPeriods * l.refill.toNat := by
  have refilled : l.refill ≠ 0 := by intro nothing; simp [nothing] at refills
  have small : l.capacity.toNat ≤ maxCount := by
    have := l.capacity.toNat_lt
    unfold maxCount word32Limit
    omega
  have filled : l.capacity.toNat ≤ l.fillPeriods * l.refill.toNat := by
    unfold fillPeriods
    rw [if_neg refilled, Nat.mul_comm]
    have whole := Nat.div_add_mod (l.capacity.toNat + l.refill.toNat - 1) l.refill.toNat
    have rest := Nat.mod_lt (l.capacity.toNat + l.refill.toNat - 1) refills
    omega
  unfold keptPeriods
  rcases Nat.le_total (l.fillPeriods + 1) maxCount with within | beyond
  · rw [Nat.min_eq_left within]
    exact filled.trans (Nat.mul_le_mul_right _ (Nat.le_succ _))
  · rw [Nat.min_eq_right beyond]
    exact small.trans (Nat.le_mul_of_pos_right _ refills)

/-- A count of 32 bits is exact, as doubles tell all counts of 53 bits. -/
theorem count_exact (n : UInt32) : n.toNat < Binary64.exactLimit := by
  have := n.toNat_lt
  unfold Binary64.exactLimit
  omega

/-- The wait for a cost that the capacity covers has a span, if a bucket can be kept. What is missing is at most the
cost, so the periods to wait are at most those that a bucket is kept for, and fewer periods fit where more do. -/
theorem waitFor_ok (usable : l.fault? = none) {span : Span} (kept : l.keep = .ok span) {tokens : Binary64}
    (unsigned : tokens.Unsigned) {cost : UInt32} (coverable : cost ≤ l.capacity) :
    ∃ wait, l.waitFor tokens cost = .ok wait := by
  have refills := (usable_pos usable).1
  have few : l.keptPeriods < Binary64.exactLimit :=
    lt_of_le_of_lt (Nat.min_le_right _ _) (by unfold maxCount word32Limit Binary64.exactLimit; omega)
  have missing : ((Binary64.ofNat cost.toNat).sub tokens).AtMost cost.toNat :=
    Binary64.sub_atMost unsigned (count_exact cost)
  have covers : cost.toNat ≤ l.keptPeriods * l.refill.toNat :=
    le_trans (UInt32.le_iff_toNat_le.mp coverable) (capacity_le_kept refills)
  have periods : TokenNumber.ceilWithin maxCount
      (TokenNumber.div (TokenNumber.sub (TokenNumber.ofNat cost.toNat) tokens) (TokenNumber.ofNat l.refill.toNat)) ≤
        l.keptPeriods :=
    Binary64.ceilWithin_le maxCount (Binary64.div_atMost missing refills (count_exact l.refill) covers few)
  obtain ⟨wait, is⟩ := Span.times?_fewer (keep_periods kept) periods
  unfold waitFor
  dsimp only
  split_ifs
  · exact ⟨.zero, rfl⟩
  · exact ⟨wait, by rw [is]⟩

end Limit

end Turnstile
