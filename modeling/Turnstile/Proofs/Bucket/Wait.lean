import Turnstile.Proofs.Bucket.Rounded
import Turnstile.Proofs.Store.Room

/-!
How honest an advertised wait is.

A bucket that does not meet a cost tells how long to wait: the missing tokens in whole refills. Whoever computes the
wait rounds twice, and whoever refills the bucket afterwards rounds on another way. The wait may be too short for one
reason only: that the doubles do not see as many periods in it as there are. Where they do, the tokens that were
missing are there, and all that was rounded on the way is made up for by the last sum, which is rounded to the even
neighbour.

So a wait is honest for periods that are whole 512ths of a second, and one part in `2 ^ 50` too short at most for any
other period. Nothing here is said of waits that do not fit into the 64 bits in which they are reported.
-/

namespace Turnstile

open Binary64

/-- The sum of a count that falls short of a cost and a whole number of tokens that is missing, as far as doubles can
tell, is rounded to the cost. It falls short of the cost by no more than half a unit, and a tie goes up to the even
neighbour. -/
theorem le_rounded_sum {held : ℚ} {cost tokens : ℕ} (unsigned : 0 ≤ held) (small : cost < 2 ^ 32) (some : 0 < tokens) (fewer : held + tokens < cost)
    (missing : rounded (cost - held) ≤ tokens) : (cost : ℚ) ≤ rounded (held + tokens) := by
  have some' : (0 : ℚ) < tokens := by exact_mod_cast some
  have fewTokens : tokens ≤ exactLimit := by
    have less : (tokens : ℚ) < cost := by linarith
    have less' : tokens < cost := by exact_mod_cast less
    unfold exactLimit
    omega
  -- the sum is at most half a unit of the tokens below the cost, and its own unit is no lesser
  have near := (representable_natCast fewTokens).above some' missing
  have finer : unitOf (tokens : ℚ) ≤ unitOf (held + tokens) := unitOf_mono some' (by linarith)
  have units : (2 : ℚ) ^ unitOf (tokens : ℚ) ≤ 2 ^ unitOf (held + tokens) := zpow_le_zpow_right₀ one_le_two finer
  have coarse : unitOf (held + tokens) ≤ -21 := by
    apply unitOf_le_of_lt (by linarith) (by decide)
    have below : (cost : ℚ) < (2 ^ 32 : ℕ) := by exact_mod_cast small
    have power : (2 : ℚ) ^ ((-21 : ℤ) + 53) = (2 ^ 32 : ℕ) := by norm_num
    rw [power]
    linarith
  obtain ⟨k, unit⟩ : ∃ k : ℕ, unitOf (held + tokens) = -(k + 1 : ℕ) := ⟨(-unitOf (held + tokens) - 1).toNat, by omega⟩
  have positive : (0 : ℚ) < 2 ^ unitOf (held + tokens) := by positivity
  have counted : (cost : ℚ) = (cost * 2 ^ (k + 1) : ℕ) * 2 ^ unitOf (held + tokens) := by
    rw [unit, zpow_neg, zpow_natCast]
    push_cast
    field_simp
  have reached : cost * 2 ^ (k + 1) ≤ nearestWhole ((held + tokens) / 2 ^ unitOf (held + tokens)) := by
    apply le_nearestWhole
    · rw [pow_succ, ← Nat.mul_assoc, Nat.mul_mod_left]
    · positivity
    · rw [le_div_iff₀ positive, sub_mul, ← counted]
      linarith
  have reached' : ((cost * 2 ^ (k + 1) : ℕ) : ℚ) ≤ nearestWhole ((held + tokens) / 2 ^ unitOf (held + tokens)) := by
    exact_mod_cast reached
  rw [counted]
  exact mul_le_mul_of_nonneg_right reached' positive.le

/-- What is missing of a cost is not too small for a double. If the count is near the cost, it has its last bit at most
53 places below, and so has the difference. -/
theorem missing_ge {held : ℚ} {cost : ℕ} (representable : Representable held) (unsigned : 0 ≤ held)
    (short : held < cost) : 2 ^ (-53 : ℤ) ≤ rounded (cost - held) := by
  apply le_rounded (by positivity) ⟨1, -53, by norm_num, by decide, by simp⟩
  have one : (1 : ℚ) ≤ cost := by
    have some : (0 : ℚ) < cost := lt_of_le_of_lt unsigned short
    exact_mod_cast Nat.succ_le_of_lt (by exact_mod_cast some)
  rcases lt_or_ge held (1 / 2) with low | high
  · norm_num
    linarith
  · have positive : 0 < held := by linarith
    obtain ⟨n, value⟩ := representable.units positive
    have unit : -53 ≤ unitOf held := by
      have log : -1 ≤ Int.log 2 held :=
        (Int.zpow_le_iff_le_log one_lt_two positive).mp (by norm_num at high ⊢; exact high)
      unfold unitOf
      omega
    have counted : held = (n * 2 ^ (unitOf held - -53).toNat : ℕ) * 2 ^ (-53 : ℤ) := by
      rw [Nat.cast_mul, Nat.cast_pow, Nat.cast_ofNat, mul_assoc, ← twoPow_units unit]
      exact value
    generalize n * 2 ^ (unitOf held - -53).toNat = m at counted
    have whole : (cost : ℚ) = (cost * 2 ^ 53 : ℕ) * 2 ^ (-53 : ℤ) := by
      push_cast
      rw [mul_assoc]
      norm_num
    have positive' : (0 : ℚ) < 2 ^ (-53 : ℤ) := by positivity
    have fewer : m + 1 ≤ cost * 2 ^ 53 := by
      rw [counted, whole] at short
      exact_mod_cast lt_of_mul_lt_mul_right short positive'.le
    have fewer' : (m : ℚ) + 1 ≤ (cost * 2 ^ 53 : ℕ) := by exact_mod_cast fewer
    rw [counted, whole, ← sub_mul]
    calc (2 : ℚ) ^ (-53 : ℤ) = 1 * 2 ^ (-53 : ℤ) := (one_mul _).symm
      _ ≤ _ := mul_le_mul_of_nonneg_right (by linarith) positive'.le

/-- A count has all of its 53 bits: half a unit is at most one part in `2 ^ 53` of it, and a unit is more. -/
theorem unit_of_count {n : ℕ} (some : 0 < n) :
    (n : ℚ) * oneRounding < 2 ^ unitOf (n : ℚ) ∧ 2 ^ unitOf (n : ℚ) / 2 ≤ (n : ℚ) * oneRounding := by
  have one : (1 : ℚ) ≤ n := by exact_mod_cast some
  have positive : (0 : ℚ) < n := by linarith
  have fine : minExponent < unitOf (n : ℚ) := by
    have log : 0 ≤ Int.log 2 (n : ℚ) := (Int.zpow_le_iff_le_log one_lt_two positive).mp (by simpa using one)
    unfold unitOf minExponent
    omega
  have above := lt_unitOf (n : ℚ)
  have below := unitOf_le positive fine
  rw [zpow_add₀ two_ne_zero] at above below
  generalize (2 : ℚ) ^ unitOf (n : ℚ) = unit at *
  norm_num [oneRounding] at above below ⊢
  constructor <;> linarith

namespace Limit

variable {l : Limit} {held : ℚ} {cost : ℕ}

/-- The refills that are missing of a cost, as doubles have them. -/
def missingRefills (l : Limit) (held : ℚ) (cost : ℕ) : ℕ := ⌈rounded (rounded (cost - held) / l.refill.toNat)⌉₊

/-- The most refills that can be missing of a cost. -/
def mostRefills (l : Limit) (cost : ℕ) : ℕ := (cost + l.refill.toNat - 1) / l.refill.toNat

/-- The longest wait for a cost. -/
def longestWait (l : Limit) (cost : UInt32) : ℕ := l.period.nanos * l.mostRefills cost.toNat

section

variable (refills : 0 < l.refill.toNat)
include refills

/-- As many refills as an empty bucket lacks cover the cost, for the quotient was rounded up. -/
theorem mostRefills_covers (cost : ℕ) : cost ≤ l.mostRefills cost * l.refill.toNat := by
  have split := Nat.div_add_mod (cost + l.refill.toNat - 1) l.refill.toNat
  have rest := Nat.mod_lt (cost + l.refill.toNat - 1) refills
  unfold mostRefills
  rw [Nat.mul_comm]
  omega

/-- The refills that an empty bucket lacks are no more than the tokens of the cost, and their tokens go past the cost by
less than one refill. -/
theorem mostRefills_le (cost : ℕ) : l.mostRefills cost ≤ cost ∧ l.mostRefills cost * l.refill.toNat < cost + l.refill.toNat := by
  have split := Nat.div_mul_le_self (cost + l.refill.toNat - 1) l.refill.toNat
  constructor
  · unfold mostRefills
    rcases Nat.eq_zero_or_pos cost with rfl | some
    · rw [Nat.div_eq_of_lt (by omega)]
    · obtain ⟨c, rfl⟩ : ∃ c, cost = c + 1 := ⟨cost - 1, by omega⟩
      have grown := Nat.le_mul_of_pos_left c refills
      apply Nat.div_le_of_le_mul
      rw [Nat.mul_succ]
      omega
  · unfold mostRefills
    omega

variable (representable : Representable held) (unsigned : 0 ≤ held) (small : cost < 2 ^ 32) (short : held < cost)
include representable unsigned small short

/-- Some refills are missing of a cost that is not met, and at most as many as an empty bucket lacks. The most refills
are a whole number that bounds the exact quotient, and rounding does not lead past it. -/
theorem missingRefills_bounds : 0 < l.missingRefills held cost ∧ l.missingRefills held cost ≤ l.mostRefills cost := by
  have refills' : (0 : ℚ) < l.refill.toNat := by exact_mod_cast refills
  have missing := missing_ge representable unsigned short
  constructor
  · apply Nat.ceil_pos.mpr
    have part : (2 : ℚ) ^ (-85 : ℤ) ≤ rounded (cost - held) / l.refill.toNat := by
      rw [le_div_iff₀ refills']
      calc (2 : ℚ) ^ (-85 : ℤ) * l.refill.toNat ≤ 2 ^ (-85 : ℤ) * 2 ^ (32 : ℤ) := by
            gcongr
            exact count_le l.refill
        _ = 2 ^ (-53 : ℤ) := by norm_num
        _ ≤ _ := missing
    exact lt_of_lt_of_le (by positivity) (le_rounded (by positivity) (representable_power (by decide)) part)
  · apply Nat.ceil_le.mpr
    have few : l.mostRefills cost ≤ exactLimit := by
      have := (mostRefills_le refills cost).1
      unfold exactLimit
      omega
    have all : rounded (cost - held) ≤ cost := by
      apply rounded_le (by linarith) (representable_natCast (by unfold exactLimit; omega))
      linarith
    have covers : (cost : ℚ) ≤ l.mostRefills cost * l.refill.toNat := by exact_mod_cast mostRefills_covers refills cost
    apply rounded_le (div_nonneg (rounded_nonneg _) refills'.le) (representable_natCast few)
    rw [div_le_iff₀ refills']
    exact all.trans covers

/-- The tokens of the missing refills are within the counts that doubles tell exactly: they go past the cost by less
than one refill, and both have 32 bits. -/
theorem refilled_small : l.missingRefills held cost * l.refill.toNat ≤ exactLimit := by
  obtain ⟨-, most⟩ := missingRefills_bounds refills representable unsigned small short
  have tokens := (mostRefills_le refills cost).2
  have fewer := Nat.mul_le_mul_right l.refill.toNat most
  have bits := l.refill.toNat_lt
  unfold exactLimit
  omega

/-- The refills that are said to be missing bring what is missing, as far as doubles can tell: a quotient that is
rounded down to a whole number is too close to it for the product to reach the next double. -/
theorem missing_le_refilled : rounded (cost - held) ≤ (l.missingRefills held cost * l.refill.toNat : ℕ) := by
  obtain ⟨some, most⟩ := missingRefills_bounds refills representable unsigned small short
  have fewTokens := refilled_small refills representable unsigned small short
  have down : rounded (rounded (cost - held) / l.refill.toNat) ≤ l.missingRefills held cost := Nat.le_ceil _
  generalize l.missingRefills held cost = k at *
  have refills' : (0 : ℚ) < l.refill.toNat := by exact_mod_cast refills
  have few : k ≤ exactLimit := by
    have := (mostRefills_le refills cost).1
    unfold exactLimit
    omega
  have some' : (0 : ℚ) < k := by exact_mod_cast some
  have tokens : (0 : ℚ) < (k * l.refill.toNat : ℕ) := by exact_mod_cast Nat.mul_pos some refills
  have quotient := (representable_natCast few).above some' down
  by_contra more
  have next := (representable_natCast fewTokens).next tokens (rounded_representable (by linarith)) (not_le.mp more)
  have coarse := (unit_of_count (Nat.mul_pos some refills)).1
  have fine := (unit_of_count some).2
  have missing : rounded (cost - held) ≤ (k + k * oneRounding) * l.refill.toNat := by
    rw [← div_le_iff₀ refills']
    linarith
  have product : (k + k * oneRounding) * l.refill.toNat =
      (k * l.refill.toNat : ℕ) + (k * l.refill.toNat : ℕ) * oneRounding := by
    push_cast
    ring
  rw [product] at missing
  linarith

/-- The refills that are said to be missing bring a count up to the cost. Either the exact sum reaches it, or the sum
falls short by so little that it is rounded up to the cost. -/
theorem missingRefills_suffice :
    (cost : ℚ) ≤ rounded (held + (l.missingRefills held cost * l.refill.toNat : ℕ)) := by
  obtain ⟨some, -⟩ := missingRefills_bounds refills representable unsigned small short
  rcases le_or_gt (cost : ℚ) (held + (l.missingRefills held cost * l.refill.toNat : ℕ)) with enough | fewer
  · exact le_rounded (Nat.cast_nonneg _) (representable_natCast (by unfold exactLimit; omega)) enough
  · apply le_rounded_sum unsigned small (Nat.mul_pos some refills) fewer
    exact missing_le_refilled refills representable unsigned small short

end

section

variable (usable : l.fault? = none) {tokens : Binary64} (is : tokens.Is held) (cost : UInt32)
include usable is

/-- Where a cost is not met, the refills that are missing are counted: the difference is above zero, and the quotient
that is rounded up is within the greatest count. -/
theorem missingRefills_counted (short : held < cost.toNat) :
    TokenNumber.atMost (TokenNumber.sub (TokenNumber.ofNat cost.toNat) tokens) (TokenNumber.ofNat 0) = false ∧
      TokenNumber.ceilWithin maxCount (TokenNumber.div (TokenNumber.sub (TokenNumber.ofNat cost.toNat) tokens)
        (TokenNumber.ofNat l.refill.toNat)) = l.missingRefills held cost.toNat := by
  have refills := (usable_pos usable).1
  have refills' : (1 : ℚ) ≤ l.refill.toNat := by exact_mod_cast refills
  have costs := below_safeLimit (count_le cost) (by decide)
  have missing : ((ofNat cost.toNat).sub tokens).Is (rounded (cost.toNat - held)) :=
    sub_is (ofNat_is_exact (count_exact cost)) is short.le costs
  have all : rounded (cost.toNat - held) ≤ cost.toNat := by
    apply rounded_le (by linarith) (representable_natCast (count_exact cost).le)
    linarith [is.nonneg]
  have quotient : (((ofNat cost.toNat).sub tokens).div (ofNat l.refill.toNat)).Is
      (rounded (rounded (cost.toNat - held) / l.refill.toNat)) := by
    apply div_is missing (ofNat_is_exact (count_exact l.refill)) (by linarith)
    exact ((div_le_self (rounded_nonneg _) refills').trans all).trans_lt costs
  constructor
  · rw [← Bool.not_eq_true]
    intro none
    have below : rounded (cost.toNat - held) ≤ 0 := (le_iff missing zero_is).mp none
    have something := missing_ge is.1 is.nonneg short
    have power : (0 : ℚ) < 2 ^ (-53 : ℤ) := by positivity
    linarith
  · apply (ceilWithin_is quotient maxCount).trans
    apply min_eq_right
    change l.missingRefills held cost.toNat ≤ maxCount
    have most := (missingRefills_bounds refills is.1 is.nonneg cost.toNat_lt short).2
    have few := (mostRefills_le refills cost.toNat).1
    have small := cost.toNat_lt
    unfold maxCount word32Limit
    omega

/-- What is said to be the wait: none where the cost is met, else the missing refills. The doubles that are computed
with have just the values of which both are read off. -/
theorem waitFor_eq :
    l.waitFor tokens cost =
      if (cost.toNat : ℚ) ≤ held then .ok .zero
      else
        match l.period.times? (l.missingRefills held cost.toNat) with
        | some span => .ok span
        | none => .error .spanOutOfRange := by
  unfold waitFor
  dsimp only
  rcases le_or_gt (cost.toNat : ℚ) held with met | short
  · have nothing : TokenNumber.atMost (TokenNumber.sub (TokenNumber.ofNat cost.toNat) tokens) (TokenNumber.ofNat 0) =
        true := sub_le_zero (ofNat_is_exact (count_exact cost)) is met (below_safeLimit (count_le cost) (by decide))
    rw [if_pos nothing, if_pos met]
  · obtain ⟨something, counted⟩ := missingRefills_counted usable is cost short
    rw [if_neg (by rw [something]; decide), if_neg (not_le.mpr short)]
    exact counted ▸ rfl

/-- Where the longest wait for a cost fits into 64 bits, every wait for it has a span that does, as no more refills are
missing than an empty bucket lacks. -/
theorem waitFor_fits (timely : l.longestWait cost < word64Limit) :
    ∃ wait, l.waitFor tokens cost = .ok wait ∧ wait.nanos < word64Limit ∧
      (held < cost.toNat → wait.nanos = l.period.nanos * l.missingRefills held cost.toNat) := by
  rw [waitFor_eq usable is cost]
  rcases le_or_gt (cost.toNat : ℚ) held with met | short
  · rw [if_pos met]
    refine ⟨.zero, rfl, by decide, ?_⟩
    intro short
    linarith
  · have refills := (usable_pos usable).1
    have most := (missingRefills_bounds refills is.1 is.nonneg cost.toNat_lt short).2
    have within : l.period.nanos * l.missingRefills held cost.toNat < word64Limit :=
      lt_of_le_of_lt (Nat.mul_le_mul_left _ most) timely
    have inside : l.period.nanos * l.missingRefills held cost.toNat < spanSecondsLimit * nanosPerSecond :=
      within.trans_le (Nat.le_mul_of_pos_right word64Limit (by decide))
    have multiplied : l.period.times? (l.missingRefills held cost.toNat) = some ⟨_, inside⟩ := by
      unfold Span.times? Span.ofNanos?
      rw [dif_pos inside]
    rw [if_neg (not_le.mpr short), multiplied]
    exact ⟨_, rfl, within, fun _ => rfl⟩

end

/-- Whether a wait is over for sure: a period of whole 512ths of a second is counted exactly, and of any other wait one
part in `2 ^ 50` may be missing. -/
def Waited (l : Limit) (wait passed : ℕ) : Prop :=
  wait ≤ passed ∧ (5 ^ 9 ∣ l.period.nanos ∨ wait * (2 ^ 50 + 1) ≤ passed * 2 ^ 50)

instance (l : Limit) (wait passed : ℕ) : Decidable (l.Waited wait passed) := inferInstanceAs (Decidable (_ ∧ _))

/-- Whoever has waited long enough has so for a shorter wait, whichever of the two reasons there is. -/
theorem Waited.shorter {wait less passed : ℕ} (waited : l.Waited wait passed) (ordered : less ≤ wait) :
    l.Waited less passed := by
  obtain ⟨past, exact | late⟩ := waited
  · exact ⟨ordered.trans past, .inl exact⟩
  · exact ⟨ordered.trans past, .inr ((Nat.mul_le_mul_right _ ordered).trans late)⟩

/-- After a wait that is over the doubles see all of its periods. Either both are counted exactly, or what was waited
beyond makes up for the roundings of both. -/
theorem Waited.seen {periods passed : ℕ} (some : 0 < periods) (waited : l.Waited (l.period.nanos * periods) passed)
    (short : l.period.nanos * periods < word64Limit) :
    periods * roundedSeconds l.period.nanos ≤ roundedSeconds passed := by
  obtain ⟨past, exact | late⟩ := waited
  · have within : l.period.nanos < word64Limit := lt_of_le_of_lt (Nat.le_mul_of_pos_right _ some) short
    apply le_trans _ (roundedSeconds_mono past)
    rw [roundedSeconds_exact exact within, roundedSeconds_exact (exact.mul_right periods) short]
    push_cast
    apply le_of_eq
    ring
  · have late' : (l.period.nanos * periods : ℚ) * (2 ^ 50 + 1) ≤ passed * 2 ^ 50 := by exact_mod_cast late
    have high := (roundedSeconds_close l.period.nanos).2
    have low := (roundedSeconds_close passed).1
    have margin : (1 + oneRounding) ^ 2 * 2 ^ 50 ≤ (1 - oneRounding) ^ 2 * (2 ^ 50 + 1) := by norm_num [oneRounding]
    have billion : (0 : ℚ) < nanosPerSecond := by norm_num [nanosPerSecond]
    have share : (l.period.nanos * periods : ℚ) * (1 + oneRounding) ^ 2 ≤ passed * (1 - oneRounding) ^ 2 := by
      have nonneg : (0 : ℚ) ≤ l.period.nanos * periods := by positivity
      have few : (0 : ℚ) ≤ (1 - oneRounding) ^ 2 := by positivity
      have left := mul_le_mul_of_nonneg_left margin nonneg
      have right := mul_le_mul_of_nonneg_right late' few
      linarith
    calc periods * roundedSeconds l.period.nanos
        ≤ periods * (l.period.nanos / nanosPerSecond * (1 + oneRounding) ^ 2) := by gcongr
      _ = (l.period.nanos * periods : ℚ) * (1 + oneRounding) ^ 2 / nanosPerSecond := by ring
      _ ≤ passed * (1 - oneRounding) ^ 2 / nanosPerSecond := by gcongr
      _ = passed / nanosPerSecond * (1 - oneRounding) ^ 2 := by ring
      _ ≤ roundedSeconds passed := low

end Limit

namespace Bucket

variable {b : Bucket Binary64} {l : Limit} {now : Moment} {held : ℚ} {cost : UInt32}

/-- Whether a take at a moment would find as many tokens as it costs. -/
def Meets (b : Bucket Binary64) (l : Limit) (cost : UInt32) (at' : Moment) : Prop := (b.refill l at').covers cost = true

/-- A bucket meets a cost exactly if what it has and what time has brought are rounded to as much. The capacity cuts off
nothing here, since it covers the cost. -/
theorem meets_iff (usable : l.fault? = none) (coverable : cost ≤ l.capacity) (counted : b.Counted l now held)
    (shown : now.nanos < Moment.secondsLimit * nanosPerSecond) :
    b.Meets l cost now ↔ (cost.toNat : ℚ) ≤ rounded (held + l.gains (now.since b.asOf)) := by
  have within : (cost.toNat : ℚ) ≤ l.capacity.toNat := by exact_mod_cast UInt32.le_iff_toNat_le.mp coverable
  obtain ⟨refilled, -⟩ := refill_counted (Limit.usable_pos usable).2 counted shown
  unfold Meets
  rw [covers_iff refilled, holding, le_min_iff]
  exact and_iff_left within

/-- A cost that is met stays met as long as nobody takes, for the gains do not shrink and rounding keeps the order. -/
theorem Meets.later (usable : l.fault? = none) (coverable : cost ≤ l.capacity) (counted : b.Counted l now held)
    {later : Moment} (ahead : now ≤ later) (shown : later.nanos < Moment.secondsLimit * nanosPerSecond)
    (meets : b.Meets l cost now) : b.Meets l cost later := by
  have shown' : now.nanos < Moment.secondsLimit * nanosPerSecond := lt_of_le_of_lt ahead shown
  rw [meets_iff usable coverable counted shown'] at meets
  rw [meets_iff usable coverable (counted.later ahead) shown]
  have passed : now.since b.asOf ≤ later.since b.asOf := Nat.sub_le_sub_right ahead _
  apply meets.trans
  apply rounded_mono (add_nonneg counted.tokens.nonneg (l.gains_nonneg _))
  exact add_le_add_right (l.gains_mono passed) held

/-- Tokens are granted exactly where the bucket meets the cost. A take asks just that after its refill. -/
theorem granted_iff {left : Bucket Binary64} {grant : Grant} (taken : b.take l cost now = (left, .ok grant)) :
    grant.granted = true ↔ b.Meets l cost now := by
  unfold take report at taken
  dsimp only at taken
  injection taken with _ reported
  split at reported
  · cases reported
  · cases reported
    exact Iff.rfl

/-- What a take leaves and reports: a wait that is cut to 64 bits loses nothing where the longest one fits. -/
theorem take_reports (usable : l.fault? = none) (timely : l.longestWait cost < word64Limit)
    (counted : b.Counted l now held) (shown : now.nanos < Moment.secondsLimit * nanosPerSecond) :
    ∃ left tokens grant, b.take l cost now = (left, .ok grant) ∧ left.Counted l now tokens ∧ left.asOf = now ∧
      grant.waitNanos < word64Limit ∧
      (tokens < cost.toNat → grant.waitNanos = l.period.nanos * l.missingRefills tokens cost.toNat) := by
  obtain ⟨tokens, remains, asOf⟩ := take_counted (Limit.usable_pos usable).2 counted shown cost
  obtain ⟨wait, waits, fits, long⟩ := Limit.waitFor_fits usable remains.tokens cost timely
  have reported : b.take l cost now = ((b.take l cost now).1, .ok
      ⟨(b.refill l now).covers cost, TokenNumber.floorWithin maxLongCount (b.take l cost now).1.tokens,
        wait.nanos % word64Limit⟩) := by
    simp only [take] at waits ⊢
    simp only [report, waits]
  refine ⟨_, tokens, _, reported, remains, asOf, Nat.mod_lt _ (by decide), ?_⟩
  intro short
  change wait.nanos % word64Limit = _
  rw [Nat.mod_eq_of_lt fits, long short]

/-- A full bucket meets what the capacity covers, as no time has passed and it is compared exactly. -/
theorem full_meets (coverable : cost ≤ l.capacity) (now : Moment) : (full l now : Bucket Binary64).Meets l cost now := by
  have same : (full l now : Bucket Binary64).refill l now = full l now := if_pos (Nat.sub_self _)
  unfold Meets
  rw [same]
  exact full_covers coverable now

/-- Once the wait is over that a bucket advertises, it meets the cost. The doubles see all of its periods, those bring
the missing refills, and the sum is rounded to the cost. -/
theorem meets_of_waited (usable : l.fault? = none) (coverable : cost ≤ l.capacity)
    (timely : l.longestWait cost < word64Limit) (counted : b.Counted l now held) (fresh : b.asOf = now) {wait : ℕ}
    (long : held < cost.toNat → wait = l.period.nanos * l.missingRefills held cost.toNat) {later : Moment}
    (waited : l.Waited wait (later.since now)) (ahead : now ≤ later)
    (shown : later.nanos < Moment.secondsLimit * nanosPerSecond) : b.Meets l cost later := by
  obtain ⟨refills, lasts⟩ := Limit.usable_pos usable
  rw [meets_iff usable coverable (counted.later ahead) shown, fresh]
  have nonneg := counted.tokens.nonneg
  rcases le_or_gt (cost.toNat : ℚ) held with met | short
  · apply met.trans
    apply le_rounded nonneg counted.tokens.1
    exact le_add_of_nonneg_right (l.gains_nonneg _)
  · have small := cost.toNat_lt
    obtain ⟨some, most⟩ := Limit.missingRefills_bounds refills counted.tokens.1 nonneg small short
    have fits : l.period.nanos * l.missingRefills held cost.toNat < word64Limit :=
      lt_of_le_of_lt (Nat.mul_le_mul_left _ most) timely
    rw [long short] at waited
    have seen := waited.seen some fits
    have few : l.missingRefills held cost.toNat ≤ exactLimit := by
      have := (Limit.mostRefills_le refills cost.toNat).1
      unfold exactLimit
      omega
    have brought := l.le_gains lasts few (Limit.refilled_small refills counted.tokens.1 nonneg small short) seen
    apply (Limit.missingRefills_suffice refills counted.tokens.1 nonneg small short).trans
    apply rounded_mono (add_nonneg nonneg (Nat.cast_nonneg _))
    exact add_le_add_right brought held

end Bucket

end Turnstile
