import Mathlib.Tactic.NormNum.Pow
import Turnstile.Bucket
import Turnstile.Proofs.Binary64.Values
import Turnstile.Proofs.Limit

/-!
Buckets that count in doubles.

What a bucket holds is an exact number here too, but every step on the way to it is rounded: the seconds that have
passed, their share of a period, the tokens they bring, and the sum. So a refill brings `Limit.gains`, which never
shrinks as time passes and is within a few roundings of the exact gain. Where the period is a whole number of 512ths
of a second, seconds are exact.

`Bucket.Counted` says what every bucket satisfies that began full and was asked by one limit.
-/

namespace Turnstile

open Binary64

/-- Seconds as the doubles have them. -/
def roundedSeconds (nanos : ℕ) : ℚ :=
  rounded (rounded (nanos / nanosPerSecond : ℕ) + rounded ((nanos % nanosPerSecond : ℕ) / nanosPerSecond))

section

variable {nanos : ℕ}

/-- A part of a second is rounded to less than a second, and what is missing is at least two to the minus thirtieth:
there are fewer than so many nanoseconds in a second. -/
theorem subsecond_rounded (nanos : ℕ) :
    rounded ((nanos % nanosPerSecond : ℕ) / nanosPerSecond) ≤ 1 - 2⁻¹ ^ 30 := by
  have short : nanos % nanosPerSecond ≤ 999999999 := by
    unfold nanosPerSecond
    omega
  have short' : ((nanos % nanosPerSecond : ℕ) : ℚ) ≤ 999999999 := by exact_mod_cast short
  have representable : Representable (1 - 2⁻¹ ^ 30) := by
    refine ⟨2 ^ 30 - 1, -30, by norm_num, by decide, ?_⟩
    norm_num
  apply rounded_le (by positivity) representable
  unfold nanosPerSecond at short' ⊢
  rw [div_le_iff₀ (by norm_num)]
  apply short'.trans
  norm_num

/-- Beyond 53 bits whole numbers are at least two apart, as their unit is that of a leading bit past the fifty-third. -/
theorem two_le_unit {w : ℕ} (great : exactLimit ≤ w) : 0 < rounded w ∧ (2 : ℚ) ≤ 2 ^ unitOf (rounded w) := by
  have great' : ((2 ^ 53 : ℕ) : ℚ) ≤ w := by exact_mod_cast great
  have kept : ((2 ^ 53 : ℕ) : ℚ) ≤ rounded w :=
    le_rounded (Nat.cast_nonneg _) (representable_natCast (le_refl _)) great'
  have positive : 0 < rounded (w : ℚ) := lt_of_lt_of_le (by norm_num) kept
  have unit : 1 ≤ unitOf (rounded w) := by
    have log : 53 ≤ Int.log 2 (rounded (w : ℚ)) :=
      (Int.zpow_le_iff_le_log one_lt_two positive).mp (by exact_mod_cast kept)
    unfold unitOf
    omega
  refine ⟨positive, ?_⟩
  calc (2 : ℚ) = 2 ^ (1 : ℤ) := (zpow_one _).symm
    _ ≤ _ := zpow_le_zpow_right₀ one_le_two unit

/-- A part of a second does not make a second more. Below 53 bits the next second is exact and bounds the sum, and
beyond them a part of a second is less than half a unit and is lost. -/
theorem rounded_add_le_next {w next : ℕ} {part : ℚ} (begun : 0 ≤ part) (short : part < 1) (less : w < next) :
    rounded (rounded w + part) ≤ rounded next := by
  rcases Nat.lt_or_ge w exactLimit with small | great
  · have ahead : ((w + 1 : ℕ) : ℚ) ≤ next := by exact_mod_cast less
    have exact := representable_natCast (show w + 1 ≤ exactLimit from small)
    apply le_trans _ (le_rounded (Nat.cast_nonneg _) exact ahead)
    apply rounded_le (add_nonneg (rounded_nonneg _) begun) exact
    rw [(representable_natCast small.le).rounded_eq (Nat.cast_nonneg w)]
    push_cast
    linarith
  · obtain ⟨positive, two⟩ := two_le_unit great
    have down := (rounded_representable (Nat.cast_nonneg w)).absorbs positive (le_add_of_nonneg_right begun) (by linarith)
    exact down.trans (rounded_mono (Nat.cast_nonneg w) (by exact_mod_cast less.le))

/-- Where a second has begun the doubles do not know less than that second, so more nanoseconds are no fewer seconds.
Within one second the parts are compared, and across seconds the next one lies between. -/
theorem roundedSeconds_mono {more : ℕ} (ordered : nanos ≤ more) : roundedSeconds nanos ≤ roundedSeconds more := by
  unfold roundedSeconds
  have begun (n : ℕ) : (0 : ℚ) ≤ rounded ((n % nanosPerSecond : ℕ) / nanosPerSecond) := rounded_nonneg _
  have whole : nanos / nanosPerSecond ≤ more / nanosPerSecond := Nat.div_le_div_right ordered
  rcases whole.eq_or_lt with same | less
  · have rest : nanos % nanosPerSecond ≤ more % nanosPerSecond := by
      have split := Nat.div_add_mod nanos nanosPerSecond
      have split' := Nat.div_add_mod more nanosPerSecond
      rw [same] at split
      omega
    have rest' : ((nanos % nanosPerSecond : ℕ) : ℚ) ≤ (more % nanosPerSecond : ℕ) := by exact_mod_cast rest
    rw [same]
    apply rounded_mono (add_nonneg (rounded_nonneg _) (rounded_nonneg _))
    apply add_le_add_right
    apply rounded_mono (by positivity)
    gcongr
  · have short : rounded ((nanos % nanosPerSecond : ℕ) / nanosPerSecond) < 1 :=
      lt_of_le_of_lt (subsecond_rounded nanos) (by norm_num)
    apply (rounded_add_le_next (begun nanos) short less).trans
    apply le_rounded (rounded_nonneg _) (rounded_representable (Nat.cast_nonneg _))
    linarith [begun more]

/-- A whole number of 512ths of a second is exact: the seconds and the part of one have few enough bits together. -/
theorem roundedSeconds_exact (whole : 5 ^ 9 ∣ nanos) (short : nanos < word64Limit) :
    roundedSeconds nanos = nanos / nanosPerSecond := by
  obtain ⟨j, rfl⟩ := whole
  have billion : nanosPerSecond = 5 ^ 9 * 512 := by decide
  have few : j < 2 ^ 52 := by
    unfold word64Limit at short
    omega
  have parts : 5 ^ 9 * j / nanosPerSecond = j / 512 ∧ 5 ^ 9 * j % nanosPerSecond = 5 ^ 9 * (j % 512) := by
    rw [billion]
    exact ⟨Nat.mul_div_mul_left _ _ (by decide), Nat.mul_mod_mul_left _ _ _⟩
  have share (n : ℕ) : ((5 ^ 9 * n : ℕ) : ℚ) / nanosPerSecond = n * 2 ^ (-9 : ℤ) := by
    rw [billion]
    push_cast
    norm_num
    ring
  have representable (n : ℕ) (small : n ≤ 2 ^ 53) : Representable ((n : ℚ) * 2 ^ (-9 : ℤ)) :=
    representable_scaled small (by decide)
  have split : ((j / 512 : ℕ) : ℚ) + (j % 512 : ℕ) * 2 ^ (-9 : ℤ) = j * 2 ^ (-9 : ℤ) := by
    have sum : (512 : ℚ) * (j / 512 : ℕ) + (j % 512 : ℕ) = j := by exact_mod_cast Nat.div_add_mod j 512
    norm_num
    linarith
  unfold roundedSeconds
  rw [parts.1, parts.2, share, share, (representable_natCast (by unfold exactLimit; omega)).rounded_eq (Nat.cast_nonneg _),
    (representable _ (by omega)).rounded_eq (by positivity), split, (representable j (by omega)).rounded_eq (by positivity)]

/-- What is not much less than a nanosecond is not too small to have all of its bits. -/
theorem normal_of_nano {q : ℚ} (reached : 2 ^ (-31 : ℤ) ≤ q) : Normal q :=
  .inr (le_trans (zpow_le_zpow_right₀ one_le_two (by decide)) reached)

/-- A natural number is zero or not too small to have all of its bits. -/
theorem normal_natCast (n : ℕ) : Normal (n : ℚ) := by
  rcases Nat.eq_zero_or_pos n with rfl | some
  · exact .inl Nat.cast_zero
  · have one : (1 : ℚ) ≤ n := by exact_mod_cast some
    exact normal_of_nano (le_trans (by norm_num) one)

/-- Some nanoseconds are no less than one, and a rounding takes away next to nothing of that. -/
theorem nano_le_share {n : ℕ} (some : 0 < n) : (2 : ℚ) ^ (-31 : ℤ) ≤ n / nanosPerSecond * (1 - oneRounding) := by
  have one : (1 : ℚ) ≤ n := by exact_mod_cast some
  calc (2 : ℚ) ^ (-31 : ℤ) ≤ 1 / nanosPerSecond * (1 - oneRounding) := by norm_num [nanosPerSecond, oneRounding]
    _ ≤ n / nanosPerSecond * (1 - oneRounding) := by
      apply mul_le_mul_of_nonneg_right _ (by norm_num [oneRounding])
      gcongr

/-- A part of a second is zero or not too small to have all of its bits. -/
theorem normal_share (n : ℕ) : Normal ((n : ℚ) / nanosPerSecond) := by
  rcases Nat.eq_zero_or_pos n with rfl | some
  · exact .inl (by simp)
  · apply normal_of_nano
    apply (nano_le_share some).trans
    apply mul_le_of_le_one_right (by positivity)
    norm_num [oneRounding]

/-- Seconds are within two roundings of the exact ones: the whole seconds and the part are each rounded once, and so is
their sum. -/
theorem roundedSeconds_close (nanos : ℕ) :
    (nanos : ℚ) / nanosPerSecond * (1 - oneRounding) ^ 2 ≤ roundedSeconds nanos ∧
      roundedSeconds nanos ≤ (nanos : ℚ) / nanosPerSecond * (1 + oneRounding) ^ 2 := by
  have split : (nanos : ℚ) / nanosPerSecond =
      (nanos / nanosPerSecond : ℕ) + (nanos % nanosPerSecond : ℕ) / nanosPerSecond := by
    have positive : (nanosPerSecond : ℚ) ≠ 0 := by norm_num [nanosPerSecond]
    have sum : (nanosPerSecond : ℚ) * (nanos / nanosPerSecond : ℕ) + (nanos % nanosPerSecond : ℕ) = nanos := by
      exact_mod_cast Nat.div_add_mod nanos nanosPerSecond
    field_simp
    linarith
  obtain ⟨wholeLow, wholeHigh⟩ := (normal_natCast (nanos / nanosPerSecond)).close
  obtain ⟨restLow, restHigh⟩ := (normal_share (nanos % nanosPerSecond)).close
  have sumLow := add_le_add wholeLow restLow
  have sumHigh := add_le_add wholeHigh restHigh
  rw [← add_mul, ← split] at sumLow sumHigh
  have normal : Normal (rounded (nanos / nanosPerSecond : ℕ) +
      rounded ((nanos % nanosPerSecond : ℕ) / nanosPerSecond)) := by
    rcases Nat.eq_zero_or_pos nanos with rfl | some
    · exact .inl (by simp [rounded_zero])
    · exact normal_of_nano ((nano_le_share some).trans sumLow)
  obtain ⟨low, high⟩ := normal.close
  rw [pow_two, pow_two, ← mul_assoc, ← mul_assoc]
  constructor
  · exact (mul_le_mul_of_nonneg_right sumLow (by norm_num [oneRounding])).trans low
  · exact high.trans (mul_le_mul_of_nonneg_right sumHigh (by norm_num [oneRounding]))

end

/-- A power of two that is not too small is representable, with one for its mantissa. -/
theorem representable_power {e : ℤ} (fine : minExponent ≤ e) : Representable (2 ^ e) := ⟨1, e, by norm_num, fine, by simp⟩

/-- A power of two is far from the greatest double, as long as its exponent is. -/
theorem below_safeLimit {q : ℚ} {e : ℤ} (bounded : q ≤ 2 ^ e) (small : e < 1023) : q < safeLimit :=
  bounded.trans_lt (zpow_lt_zpow_right₀ one_lt_two small)

section

variable {nanos : ℕ} (short : nanos < spanSecondsLimit * nanosPerSecond)
include short

/-- The whole seconds of a span fit into 64 bits, for that is the bound of spans. -/
theorem whole_seconds_le : ((nanos / nanosPerSecond : ℕ) : ℚ) ≤ 2 ^ (64 : ℤ) := by
  have whole : nanos / nanosPerSecond ≤ 2 ^ 64 := by
    unfold spanSecondsLimit word64Limit nanosPerSecond at *
    omega
  exact_mod_cast whole

/-- The parts of a number of seconds add up to less than twice the bound of spans. -/
theorem second_parts_le :
    rounded (nanos / nanosPerSecond : ℕ) + rounded ((nanos % nanosPerSecond : ℕ) / nanosPerSecond) ≤ 2 ^ (65 : ℤ) := by
  have left := rounded_le (Nat.cast_nonneg _) (representable_power (by decide)) (whole_seconds_le short)
  have right := subsecond_rounded nanos
  norm_num at left right ⊢
  linarith

/-- Spans are far from the greatest double, and so is what passes between moments that clocks can show. -/
theorem roundedSeconds_le : roundedSeconds nanos ≤ 2 ^ (65 : ℤ) :=
  rounded_le (add_nonneg (rounded_nonneg _) (rounded_nonneg _)) (representable_power (by decide)) (second_parts_le short)

/-- The double for a number of seconds has the rounded seconds for its value. A billion and the nanoseconds left over
are exact, and each of the three operations rounds once. -/
theorem secondsNumber_is : (secondsNumber nanos : Binary64).Is (roundedSeconds nanos) := by
  have billion : (ofNat nanosPerSecond).Is nanosPerSecond := ofNat_is_exact (by decide)
  have rest : (ofNat (nanos % nanosPerSecond)).Is (nanos % nanosPerSecond : ℕ) := by
    apply ofNat_is_exact
    unfold nanosPerSecond exactLimit
    omega
  have share : ((nanos % nanosPerSecond : ℕ) : ℚ) / nanosPerSecond ≤ 2 ^ (0 : ℤ) := by
    have less : ((nanos % nanosPerSecond : ℕ) : ℚ) ≤ nanosPerSecond := by
      exact_mod_cast (Nat.mod_lt nanos (by decide)).le
    rw [zpow_zero]
    exact div_le_one_of_le₀ less (Nat.cast_nonneg _)
  apply add_is _ _ (below_safeLimit (second_parts_le short) (by decide))
  · exact ofNat_is (below_safeLimit (whole_seconds_le short) (by decide))
  · exact div_is rest billion (by norm_num [nanosPerSecond]) (below_safeLimit share (by decide))

end

/-- A nanosecond is some time in doubles, too, since two roundings do not take half of it away. -/
theorem roundedSeconds_pos {nanos : ℕ} (some : 0 < nanos) : 2 ^ (-32 : ℤ) ≤ roundedSeconds nanos := by
  have low := (roundedSeconds_close nanos).1
  have share := nano_le_share some
  have part : (1 : ℚ) / 2 ≤ 1 - oneRounding := by norm_num [oneRounding]
  rw [pow_two, ← mul_assoc] at low
  apply le_trans _ low
  calc (2 : ℚ) ^ (-32 : ℤ) = 2 ^ (-31 : ℤ) * (1 / 2) := by norm_num
    _ ≤ nanos / nanosPerSecond * (1 - oneRounding) * (1 - oneRounding) := by gcongr

/-- No time is no time in doubles. -/
theorem roundedSeconds_zero : roundedSeconds 0 = 0 := by
  simp [roundedSeconds, rounded_zero]

namespace Limit

variable {l : Limit}

/-- What a refill brings after some time, as the doubles have it. -/
def gains (l : Limit) (elapsed : ℕ) : ℚ :=
  rounded (rounded (roundedSeconds elapsed / roundedSeconds l.period.nanos) * l.refill.toNat)

/-- A refill brings nothing when no time has passed. -/
theorem gains_zero (l : Limit) : l.gains 0 = 0 := by
  simp [gains, roundedSeconds_zero, rounded_zero]

/-- A refill takes nothing away. -/
theorem gains_nonneg (l : Limit) (elapsed : ℕ) : 0 ≤ l.gains elapsed := rounded_nonneg _

/-- No span is less than nothing in doubles. -/
theorem roundedSeconds_nonneg (nanos : ℕ) : 0 ≤ roundedSeconds nanos := rounded_nonneg _

/-- Time brings no less as it passes, because each step on the way keeps the order: the seconds, their share of a period
and the tokens of that share. -/
theorem gains_mono (l : Limit) {elapsed more : ℕ} (ordered : elapsed ≤ more) : l.gains elapsed ≤ l.gains more := by
  have seconds := roundedSeconds_mono ordered
  have nonneg := roundedSeconds_nonneg elapsed
  have period := roundedSeconds_nonneg l.period.nanos
  have shares : roundedSeconds elapsed / roundedSeconds l.period.nanos ≤
      roundedSeconds more / roundedSeconds l.period.nanos := by gcongr
  apply rounded_mono (mul_nonneg (rounded_nonneg _) (Nat.cast_nonneg _))
  apply mul_le_mul_of_nonneg_right _ (Nat.cast_nonneg _)
  exact rounded_mono (div_nonneg nonneg period) shares

/-- After as many periods as the doubles see, their tokens are there. Both the number of periods and that of the tokens
are exact, and rounding does not lead below such a number. -/
theorem le_gains (lasts : 0 < l.period.nanos) {periods elapsed : ℕ} (few : periods ≤ exactLimit)
    (fewTokens : periods * l.refill.toNat ≤ exactLimit)
    (seen : periods * roundedSeconds l.period.nanos ≤ roundedSeconds elapsed) :
    ((periods * l.refill.toNat : ℕ) : ℚ) ≤ l.gains elapsed := by
  have period : 0 < roundedSeconds l.period.nanos := lt_of_lt_of_le (by positivity) (roundedSeconds_pos lasts)
  have share : (periods : ℚ) ≤ rounded (roundedSeconds elapsed / roundedSeconds l.period.nanos) := by
    apply le_rounded (Nat.cast_nonneg _) (representable_natCast few)
    rwa [le_div_iff₀ period]
  apply le_rounded (Nat.cast_nonneg _) (representable_natCast fewTokens)
  push_cast
  gcongr

/-- Counts are at most two to the thirty-second. -/
theorem count_le (n : UInt32) : (n.toNat : ℚ) ≤ 2 ^ (32 : ℤ) := by exact_mod_cast n.toNat_lt.le

/-- What is refilled after some time is far from the greatest double. So the double that the operations give has the
value that was computed here. -/
theorem gained_is (lasts : 0 < l.period.nanos) {elapsed : ℕ} (short : elapsed < spanSecondsLimit * nanosPerSecond) :
    l.gains elapsed ≤ 2 ^ (129 : ℤ) ∧
      (((secondsNumber elapsed : Binary64).div (secondsNumber l.period.nanos)).mul (ofNat l.refill.toNat)).Is
        (l.gains elapsed) := by
  have period := roundedSeconds_pos lasts
  have positive : 0 < roundedSeconds l.period.nanos := lt_of_lt_of_le (by positivity) period
  have ratio : roundedSeconds elapsed / roundedSeconds l.period.nanos ≤ 2 ^ (97 : ℤ) := by
    rw [div_le_iff₀ positive]
    apply (roundedSeconds_le short).trans
    calc (2 : ℚ) ^ (65 : ℤ) = 2 ^ (97 : ℤ) * 2 ^ (-32 : ℤ) := by norm_num
      _ ≤ _ := by gcongr
  have ratio' := rounded_le (div_nonneg (roundedSeconds_nonneg _) positive.le) (representable_power (by decide)) ratio
  have refill := count_le l.refill
  have product : rounded (roundedSeconds elapsed / roundedSeconds l.period.nanos) * l.refill.toNat ≤ 2 ^ (129 : ℤ) := by
    calc _ ≤ (2 : ℚ) ^ (97 : ℤ) * 2 ^ (32 : ℤ) := by gcongr
      _ = 2 ^ (129 : ℤ) := by norm_num
  constructor
  · exact rounded_le (mul_nonneg (rounded_nonneg _) (Nat.cast_nonneg _)) (representable_power (by decide)) product
  · apply mul_is _ (ofNat_is_exact (count_exact l.refill)) (below_safeLimit product (by decide))
    exact div_is (secondsNumber_is short) (secondsNumber_is l.period.bounded) positive
      (below_safeLimit ratio (by decide))

end Limit

namespace Bucket

variable {b : Bucket Binary64} {l : Limit} {now : Moment} {held : ℚ}

/-- A bucket as a limit leaves it: looked at in the past, with a number of tokens that the capacity bounds. -/
structure Counted (b : Bucket Binary64) (l : Limit) (now : Moment) (held : ℚ) : Prop where
  past : b.asOf ≤ now
  tokens : b.tokens.Is held
  within : held ≤ l.capacity.toNat

/-- A full bucket is counted: it is looked at now and its tokens are the capacity, which is exact. -/
theorem full_counted (l : Limit) (now : Moment) : (full l now : Bucket Binary64).Counted l now l.capacity.toNat where
  past := Nat.le_refl _
  tokens := ofNat_is_exact (Limit.count_exact l.capacity)
  within := le_refl _

/-- A bucket that is counted stays so as time passes, as nothing but the clock changes. -/
theorem Counted.later (counted : b.Counted l now held) {later : Moment} (ahead : now ≤ later) :
    b.Counted l later held where
  past := Nat.le_trans counted.past ahead
  tokens := counted.tokens
  within := counted.within

/-- What a bucket with some tokens holds after some time. -/
def holding (l : Limit) (held : ℚ) (elapsed : ℕ) : ℚ := min (rounded (held + l.gains elapsed)) l.capacity.toNat

/-- After some time a refill adds what that has brought, up to the capacity. The sum is far from the greatest double, so
it is rounded once and compared with the capacity. -/
theorem refilled_is (lasts : 0 < l.period.nanos) (is : b.tokens.Is held) (few : held ≤ 2 ^ (32 : ℤ))
    (shown : now.nanos < Moment.secondsLimit * nanosPerSecond) (moved : now.since b.asOf ≠ 0) :
    (b.refill l now).tokens.Is (holding l held (now.since b.asOf)) ∧ (b.refill l now).asOf = now := by
  have short : now.since b.asOf < spanSecondsLimit * nanosPerSecond := by
    unfold Moment.since Moment.secondsLimit signedLimit spanSecondsLimit word64Limit nanosPerSecond at *
    omega
  obtain ⟨small, gained⟩ := l.gained_is lasts short
  have sum : held + l.gains (now.since b.asOf) ≤ 2 ^ (130 : ℤ) := by
    calc held + l.gains (now.since b.asOf) ≤ 2 ^ (32 : ℤ) + 2 ^ (129 : ℤ) := add_le_add few small
      _ ≤ 2 ^ (130 : ℤ) := by norm_num
  unfold refill
  rw [if_neg moved]
  exact ⟨least_is (add_is is gained (below_safeLimit sum (by decide))) (ofNat_is_exact (Limit.count_exact l.capacity)), rfl⟩

/-- A refill of a bucket that is counted leaves it so. Where the clock has not moved it leaves the bucket as it is, and
that is what the formula gives for no time. -/
theorem refill_counted (lasts : 0 < l.period.nanos) (counted : b.Counted l now held)
    (shown : now.nanos < Moment.secondsLimit * nanosPerSecond) :
    (b.refill l now).Counted l now (holding l held (now.since b.asOf)) ∧ (b.refill l now).asOf = now := by
  by_cases still : now.since b.asOf = 0
  · have same : b.asOf = now := by
      have past : b.asOf.nanos ≤ now.nanos := counted.past
      unfold Moment.since at still
      have : b.asOf.nanos = now.nanos := by omega
      cases asOf : b.asOf; cases now; simp_all
    have kept : holding l held 0 = held := by
      unfold holding
      rw [l.gains_zero, add_zero, counted.tokens.1.rounded_eq counted.tokens.nonneg, min_eq_left counted.within]
    have refilled : b.refill l now = b := if_pos still
    rw [refilled, still, kept]
    exact ⟨counted, same⟩
  · obtain ⟨tokens, asOf⟩ := refilled_is lasts counted.tokens (counted.within.trans (Limit.count_le _)) shown still
    have past : (b.refill l now).asOf ≤ now := Nat.le_of_eq (congrArg Moment.nanos asOf)
    exact ⟨{ past := past, tokens := tokens, within := min_le_right _ _ }, asOf⟩

/-- The tokens on hand meet the cost exactly if they are as many, for doubles are compared by their values. -/
theorem covers_iff (counted : b.Counted l now held) (cost : UInt32) : b.covers cost = true ↔ (cost.toNat : ℚ) ≤ held :=
  le_iff (ofNat_is_exact (Limit.count_exact cost)) counted.tokens

/-- Asking removes the cost where it is covered, and nothing elsewhere. What is left is rounded, and it is still at most
the capacity. -/
theorem spend_counted (counted : b.Counted l now held) (cost : UInt32) :
    (b.spend cost).Counted l now (if (cost.toNat : ℚ) ≤ held then rounded (held - cost.toNat) else held) := by
  unfold spend
  have costs : (0 : ℚ) ≤ cost.toNat := Nat.cast_nonneg _
  by_cases covered : (cost.toNat : ℚ) ≤ held
  · rw [if_pos covered, if_pos ((covers_iff counted cost).mpr covered)]
    constructor
    case past => exact counted.past
    case tokens =>
      exact sub_is counted.tokens (ofNat_is_exact (Limit.count_exact cost)) covered
        (below_safeLimit (counted.within.trans (Limit.count_le _)) (by decide))
    case within =>
      apply le_trans _ counted.within
      apply rounded_le (by linarith) counted.tokens.1
      linarith
  · rw [if_neg covered, if_neg (mt (covers_iff counted cost).mp covered)]
    exact counted

/-- Spending takes no time: the bucket stays as of the moment that it was refilled at. -/
theorem spend_asOf {α : Type} [TokenNumber α] (b : Bucket α) (cost : UInt32) : (b.spend cost).asOf = b.asOf := by
  unfold spend
  split <;> rfl

/-- Asking leaves a bucket that is counted, for a refill does and spending does. -/
theorem take_counted (lasts : 0 < l.period.nanos) (counted : b.Counted l now held)
    (shown : now.nanos < Moment.secondsLimit * nanosPerSecond) (cost : UInt32) :
    ∃ left, (b.take l cost now).1.Counted l now left ∧ (b.take l cost now).1.asOf = now := by
  obtain ⟨refilled, asOf⟩ := refill_counted lasts counted shown
  exact ⟨_, spend_counted refilled cost, (spend_asOf _ cost).trans asOf⟩

end Bucket

end Turnstile
