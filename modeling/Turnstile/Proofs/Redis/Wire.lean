import Mathlib.Algebra.Order.Floor.Div
import Mathlib.Data.Rat.Floor
import Turnstile.Proofs.Limit
import Turnstile.Redis.Dialogue

/-!
What a server is told of a limit.

A server counts in whole milliseconds of 64 bits, and it is sent two spans of a limit: the period, and how long an untouched
bucket is kept. Each is cut down to whole milliseconds by itself, then to 64 bits, and at least one is sent. A server that is
told no less than the limit says does not refill faster than the limit, and does not give a bucket up before it has filled
up at the period that was sent.

The main statement says for which limits that is so. A period that is no whole number of milliseconds is sent too short, unless
it is shorter than one. A shorter one is sent as one, but the time to keep is not counted by it. And of what does not fit into
64 bits only the rest is sent.
-/

namespace Turnstile

namespace Limit

variable {l : Limit}

/-- The periods in which an empty bucket fills up are the capacity over the refill, rounded up: `n` of them are enough
exactly if `n` refills make the capacity. -/
theorem fillPeriods_le_iff (refills : 0 < l.refill.toNat) {n : ℕ} :
    l.fillPeriods ≤ n ↔ l.capacity.toNat ≤ l.refill.toNat * n := by
  have refilled : l.refill ≠ 0 := by
    intro nothing
    simp [nothing] at refills
  have filled : l.fillPeriods = l.capacity.toNat ⌈/⌉ l.refill.toNat := if_neg refilled
  rw [filled, ceilDiv_le_iff_le_mul refills]

/-- So they are the quotient of rationals rounded up, which is how they are told of in the theorems. -/
theorem fillPeriods_eq_ceil (refills : 0 < l.refill.toNat) :
    l.fillPeriods = ⌈(l.capacity.toNat : ℚ) / l.refill.toNat⌉₊ := by
  apply eq_of_forall_ge_iff
  intro n
  rw [fillPeriods_le_iff refills, Nat.ceil_le, div_le_iff₀' (by exact_mod_cast refills)]
  exact_mod_cast Iff.rfl

/-- A bucket is kept for as many periods as it takes to fill up, or for one more, and their number has 32 bits. There is
one more unless 32 bits have no room for it: a bucket fills up in no more periods than its capacity, which has 32 bits
too. -/
theorem keptPeriods_bounds (usable : l.fault? = none) :
    0 < l.fillPeriods ∧ l.fillPeriods ≤ l.keptPeriods ∧ l.keptPeriods ≤ l.fillPeriods + 1 ∧ l.keptPeriods < word32Limit := by
  obtain ⟨refills, -⟩ := usable_pos usable
  have holds : l.capacity.toNat ≠ 0 := by
    intro nothing
    unfold fault? at usable
    rw [if_pos (UInt32.toNat_inj.mp nothing)] at usable
    cases usable
  have some : 0 < l.fillPeriods := by
    apply Nat.pos_of_ne_zero
    intro none
    have filled := (fillPeriods_le_iff refills).mp none.le
    omega
  have few : l.fillPeriods ≤ l.capacity.toNat :=
    (fillPeriods_le_iff refills).mpr (Nat.le_mul_of_pos_left _ refills)
  have small := l.capacity.toNat_lt
  unfold keptPeriods maxCount word32Limit
  omega

end Limit

namespace Redis

open Dialogue

/-- No looser than a limit: a server that is sent these milliseconds refills no faster, and keeps an untouched bucket until an
empty one has filled up at the period that it counts with. -/
structure Honours (l : Limit) (periodMillis keepMillis : ℕ) : Prop where
  period : l.period.nanos ≤ periodMillis * 1000000
  keep : ⌈(l.capacity.toNat : ℚ) / l.refill.toNat⌉₊ * periodMillis ≤ keepMillis

section

variable {l : Limit} {keep : Span}

/-- A span is sent no shorter than it is exactly if it is a whole number of milliseconds in 64 bits, or at most one.
Below one it is rounded up; everything else is cut off. -/
theorem wireMillis_covers_iff (s : Span) :
    s.nanos ≤ wireMillis s * 1000000 ↔
      s.nanos ≤ 1000000 ∨ (1000000 ∣ s.nanos ∧ s.nanos < word64Limit * 1000000) := by
  unfold wireMillis Span.millis word64Limit
  omega

/-- What is cut off is less than a millisecond, as long as the rest has 64 bits. -/
theorem lt_wireMillis_succ {s : Span} (fits : s.nanos < word64Limit * 1000000) :
    s.nanos < (wireMillis s + 1) * 1000000 := by
  rw [Nat.succ_mul]
  unfold wireMillis Span.millis word64Limit at *
  omega

/-- To honour a limit in whole numbers: the ceiling in `Honours` is the number of periods that the bucket fills up in. -/
theorem honours_iff (usable : l.fault? = none) {periodMillis keepMillis : ℕ} :
    Honours l periodMillis keepMillis ↔
      l.period.nanos ≤ periodMillis * 1000000 ∧ l.fillPeriods * periodMillis ≤ keepMillis := by
  rw [Limit.fillPeriods_eq_ceil (Limit.usable_pos usable).1]
  constructor
  · intro honours
    exact ⟨honours.period, honours.keep⟩
  · rintro ⟨period, keep⟩
    exact { period := period, keep := keep }

/-- A bucket is kept for a period at least, since it does not fill up in none. -/
theorem period_le_keep (usable : l.fault? = none) (kept : l.keep = .ok keep) : l.period.nanos ≤ keep.nanos := by
  obtain ⟨some, enough, -, -⟩ := Limit.keptPeriods_bounds usable
  rw [Span.times?_nanos (Limit.keep_periods kept)]
  exact Nat.le_mul_of_pos_right _ (by omega)

/-- A period of up to a millisecond is sent as one, and the time to keep is sent as it is. Then a bucket that fills up
in one period is kept long enough by the least that is ever sent, and any other needs a millisecond for every period. -/
theorem honours_short_iff (usable : l.fault? = none) (kept : l.keep = .ok keep) (short : l.period.nanos ≤ 1000000) :
    Honours l (wireMillis l.period) (wireMillis keep) ↔ l.fillPeriods ≤ 1 ∨ l.fillPeriods * 1000000 ≤ keep.nanos := by
  obtain ⟨-, -, -, few⟩ := Limit.keptPeriods_bounds usable
  have one : wireMillis l.period = 1 := by
    unfold wireMillis Span.millis word64Limit
    omega
  have brief : keep.nanos < word64Limit * 1000000 := by
    rw [Span.times?_nanos (Limit.keep_periods kept), Nat.mul_comm]
    have much : l.keptPeriods * l.period.nanos ≤ word32Limit * 1000000 := Nat.mul_le_mul few.le short
    exact lt_of_le_of_lt much (by decide)
  have sent : wireMillis keep = max 1 (keep.nanos / 1000000) := by
    unfold wireMillis Span.millis
    rw [Nat.mod_eq_of_lt ((Nat.div_lt_iff_lt_mul (by decide)).mpr brief)]
  have covers : l.period.nanos ≤ wireMillis l.period * 1000000 := (wireMillis_covers_iff _).mpr (.inl short)
  rw [honours_iff usable, and_iff_right covers, one, sent, Nat.mul_one, le_max_iff, Nat.le_div_iff_mul_le (by decide)]

/-- A server keeps a bucket long enough that is sent a period of at least a millisecond and a time to keep in 64 bits:
both are cut off to milliseconds, and what is left of a period, taken as often as the bucket needs, is no more than what
is left of the whole. -/
theorem kept_until_filled (usable : l.fault? = none) (kept : l.keep = .ok keep) (long : 1000000 ≤ l.period.nanos)
    (fits : keep.nanos < word64Limit * 1000000) : l.fillPeriods * wireMillis l.period ≤ wireMillis keep := by
  obtain ⟨-, enough, -, -⟩ := Limit.keptPeriods_bounds usable
  have lasts := Span.times?_nanos (Limit.keep_periods kept)
  have within := period_le_keep usable kept
  have periodSent : wireMillis l.period = l.period.nanos / 1000000 := by
    unfold wireMillis Span.millis word64Limit at *
    omega
  have keepSent : wireMillis keep = keep.nanos / 1000000 := by
    unfold wireMillis Span.millis word64Limit at *
    omega
  rw [periodSent, keepSent, lasts]
  calc l.fillPeriods * (l.period.nanos / 1000000)
      ≤ l.keptPeriods * (l.period.nanos / 1000000) := Nat.mul_le_mul_right _ enough
    _ ≤ l.keptPeriods * l.period.nanos / 1000000 := Nat.mul_div_le_mul_div_assoc _ _ _
    _ = l.period.nanos * l.keptPeriods / 1000000 := by rw [Nat.mul_comm]

/-- A time to keep that does not fit into 64 bits is sent as what is left of it, which is too short: it lacks `2 ^ 64`
milliseconds at least, and the bucket is kept for one period more than it needs at the most, which has fewer. -/
theorem fits_of_kept_until_filled (usable : l.fault? = none) (kept : l.keep = .ok keep)
    (long : 1000000 ≤ l.period.nanos) (whole : 1000000 ∣ l.period.nanos) (fits : l.period.nanos < word64Limit * 1000000)
    (filled : l.fillPeriods * wireMillis l.period ≤ wireMillis keep) : keep.nanos < word64Limit * 1000000 := by
  obtain ⟨some, -, few, -⟩ := Limit.keptPeriods_bounds usable
  obtain ⟨millis, is⟩ := whole
  have lasts := Span.times?_nanos (Limit.keep_periods kept)
  have periodSent : wireMillis l.period = millis := by
    unfold wireMillis Span.millis word64Limit at *
    omega
  have keepMillis : keep.millis = millis * l.keptPeriods := by
    unfold Span.millis
    rw [lasts, is, Nat.mul_assoc, Nat.mul_div_cancel_left _ (by decide)]
  have atMost : millis * l.keptPeriods ≤ l.fillPeriods * millis + millis := by
    calc millis * l.keptPeriods ≤ millis * (l.fillPeriods + 1) := Nat.mul_le_mul_left _ few
      _ = l.fillPeriods * millis + millis := by rw [Nat.mul_succ, Nat.mul_comm]
  have atLeast : millis ≤ l.fillPeriods * millis := Nat.le_mul_of_pos_left _ some
  rw [periodSent] at filled
  unfold wireMillis word64Limit at filled
  unfold Span.millis word64Limit at *
  omega

end

/-- The limits that are honoured as they are sent: short periods whose buckets are kept for a millisecond a period, and
whole milliseconds that stay within 64 bits. -/
theorem honours_sent_iff (usable : l.fault? = none) (kept : l.keep = .ok keep) :
    Honours l (wireMillis l.period) (wireMillis keep) ↔
      (l.period.nanos ≤ 1000000 ∧ (l.fillPeriods ≤ 1 ∨ l.fillPeriods * 1000000 ≤ keep.nanos)) ∨
        (1000000 ∣ l.period.nanos ∧ keep.nanos < word64Limit * 1000000) := by
  constructor
  · intro honours
    by_cases short : l.period.nanos ≤ 1000000
    · exact .inl ⟨short, (honours_short_iff usable kept short).mp honours⟩
    · obtain ⟨covers, filled⟩ := (honours_iff usable).mp honours
      rcases (wireMillis_covers_iff _).mp covers with atMost | ⟨whole, fits⟩
      · exact absurd atMost short
      · exact .inr ⟨whole, fits_of_kept_until_filled usable kept (by omega) whole fits filled⟩
  · rintro (⟨short, enough⟩ | ⟨whole, fits⟩)
    · exact (honours_short_iff usable kept short).mpr enough
    · have long : 1000000 ≤ l.period.nanos := Nat.le_of_dvd (Limit.usable_pos usable).2 whole
      have covers : l.period.nanos ≤ wireMillis l.period * 1000000 :=
        (wireMillis_covers_iff _).mpr (.inr ⟨whole, lt_of_le_of_lt (period_le_keep usable kept) fits⟩)
      exact (honours_iff usable).mpr ⟨covers, kept_until_filled usable kept long fits⟩

/-- Every command of a script's talk calls the script with the same arguments, or sends its text. The talk has three
rounds at most: the call, the text if the server does not have it, and the call again. -/
theorem run_commands {α : Type} (script : Script) (key : String) (arguments : List String)
    (read : Reply → Except Failure α) (replies : List Reply) :
    ((run script key arguments read).play replies).1.head? = some (["EVALSHA", script.digest, "1", key] ++ arguments) ∧
      ∀ command ∈ ((run script key arguments read).play replies).1,
        command = ["EVALSHA", script.digest, "1", key] ++ arguments ∨ command = ["SCRIPT", "LOAD", script.text] := by
  have ended (reply : Reply) (rest : List Reply) : ((concluding read reply).play rest).1 = [] := by
    unfold concluding
    split <;> rfl
  refine ⟨rfl, ?_⟩
  intro command sent
  unfold run at sent
  simp only [play, List.mem_cons] at sent
  rcases sent with rfl | sent
  · exact .inl rfl
  · split at sent
    · simp only [play, List.mem_cons] at sent
      rcases sent with rfl | sent
      · exact .inr rfl
      · split at sent
        · cases sent
        · simp only [ask, play, ended, List.mem_singleton] at sent
          exact .inl sent
    · rw [ended] at sent
      cases sent

/-- A take is sent with two spans in milliseconds, whatever the server replies. The period is no shorter than the limit's
exactly if it is a whole number of milliseconds in 64 bits or at most one, and else it falls short by less than one as long as
it fits. A bucket is kept until it has filled up at that period, if the period is a millisecond at least and the time to keep
fits. And the server honours the limit in both ways exactly if the period is a whole number of milliseconds and the time to
keep fits, or the period is at most a millisecond and the time to keep counts it as one. -/
theorem limits_are_honoured_iff {l : Limit} {keep : Span} (usable : l.fault? = none) (kept : l.keep = .ok keep)
    (keyStart key : String) (cost : UInt32) :
    ∃ periodMillis keepMillis talk, dialogue keyStart (.take key l cost) = .ok talk ∧
      (∀ replies, let call := ["EVALSHA", takeTokens.digest, "1", keyStart ++ key] ++
          [l.capacity.toNat, l.refill.toNat, periodMillis, cost.toNat, keepMillis].map toString
        (talk.play replies).1.head? = some call ∧
          ∀ command ∈ (talk.play replies).1, command = call ∨ command = ["SCRIPT", "LOAD", takeTokens.text]) ∧
      (l.period.nanos ≤ periodMillis * 1000000 ↔
        l.period.nanos ≤ 1000000 ∨ (1000000 ∣ l.period.nanos ∧ l.period.nanos < word64Limit * 1000000)) ∧
      (l.period.nanos < word64Limit * 1000000 → l.period.nanos < (periodMillis + 1) * 1000000) ∧
      (1000000 ≤ l.period.nanos → keep.nanos < word64Limit * 1000000 →
        ⌈(l.capacity.toNat : ℚ) / l.refill.toNat⌉₊ * periodMillis ≤ keepMillis) ∧
      (Honours l periodMillis keepMillis ↔
        (1000000 ∣ l.period.nanos ∧ keep.nanos < word64Limit * 1000000) ∨
          (l.period.nanos ≤ 1000000 ∧ (⌈(l.capacity.toNat : ℚ) / l.refill.toNat⌉₊ ≤ 1 ∨
            ⌈(l.capacity.toNat : ℚ) / l.refill.toNat⌉₊ * 1000000 ≤ keep.nanos))) := by
  have talk : dialogue keyStart (.take key l cost) = .ok (run takeTokens (keyStart ++ key)
      ((takeArguments l keep cost).map toString) grantOf) := by
    simp only [dialogue, kept]
    rfl
  refine ⟨wireMillis l.period, wireMillis keep, _, talk, ?_, wireMillis_covers_iff _, lt_wireMillis_succ, ?_, ?_⟩
  · intro replies
    exact run_commands takeTokens _ _ _ replies
  · rw [← Limit.fillPeriods_eq_ceil (Limit.usable_pos usable).1]
    exact kept_until_filled usable kept
  · rw [← Limit.fillPeriods_eq_ceil (Limit.usable_pos usable).1, honours_sent_iff usable kept, or_comm]

/-- Two hundred tokens at most, and as many more every minute. -/
def minuteLimit : Limit := ⟨200, 200, .ofSeconds 60⟩

/-- A hundred tokens at most, and one more in each tenth of a millisecond. -/
def rapidLimit : Limit := ⟨100, 1, ⟨100000, by decide⟩⟩

/-- A capacity of 100 at one token a period takes a hundred periods. -/
theorem rapidLimit_fills : ⌈(rapidLimit.capacity.toNat : ℚ) / rapidLimit.refill.toNat⌉₊ = 100 := by
  rw [← Limit.fillPeriods_eq_ceil (by decide)]
  rfl

/-- A bucket of whole seconds is honoured. One that fills up in ten milliseconds is not: it is sent a period ten times as long
as its own, and kept too short for that. -/
theorem limits_are_honoured_iff_minuteAndRapid :
    (∃ keep periodMillis keepMillis, minuteLimit.fault? = none ∧ minuteLimit.keep = .ok keep ∧
      Honours minuteLimit periodMillis keepMillis) ∧
    ∃ keep periodMillis keepMillis, rapidLimit.fault? = none ∧ rapidLimit.keep = .ok keep ∧
      rapidLimit.period.nanos ≤ periodMillis * 1000000 ∧ ¬ Honours rapidLimit periodMillis keepMillis := by
  constructor
  · have usable : minuteLimit.fault? = none := by decide
    have kept : minuteLimit.keep = .ok (.ofSeconds 120) := by decide +kernel
    obtain ⟨periodMillis, keepMillis, -, -, -, -, -, -, honoured⟩ := limits_are_honoured_iff usable kept "" "b" 1
    exact ⟨_, periodMillis, keepMillis, usable, kept, honoured.mpr (.inl (by decide +kernel))⟩
  · have usable : rapidLimit.fault? = none := by decide
    have kept : rapidLimit.keep = .ok ⟨10100000, by decide⟩ := by decide +kernel
    obtain ⟨periodMillis, keepMillis, -, -, -, covers, -, -, honoured⟩ := limits_are_honoured_iff usable kept "" "b" 1
    refine ⟨_, periodMillis, keepMillis, usable, kept, covers.mpr (.inl (by decide)), ?_⟩
    rw [honoured, rapidLimit_fills]
    decide

/-- Five tokens at most, and one more every millisecond and a half. -/
def oddLimit : Limit := ⟨5, 1, ⟨1500000, by decide⟩⟩

/-- One token at most, and another after as many milliseconds as there are numbers of 64 bits. -/
def slowLimit : Limit := ⟨1, 1, ⟨word64Limit * 1000000, by decide⟩⟩

/-- A server can be told a period that is too short by half, or only the rest of one that is very long, and can be told to
give a bucket up long before it has filled up. -/
theorem limits_are_not_honoured_oddSlowRapid :
    (oddLimit.fault? = none ∧ ∃ talk, dialogue "" (.take "b" oddLimit 1) = .ok talk ∧
      (talk.play []).1 = [["EVALSHA", takeTokens.digest, "1", "b", "5", "1", "1", "1", "9"]] ∧
      1 * 1000000 < oddLimit.period.nanos) ∧
    (slowLimit.fault? = none ∧ ∃ talk, dialogue "" (.take "b" slowLimit 1) = .ok talk ∧
      (talk.play []).1 = [["EVALSHA", takeTokens.digest, "1", "b", "1", "1", "1", "1", "1"]] ∧
      1 * 1000000 < slowLimit.period.nanos) ∧
    rapidLimit.fault? = none ∧ ∃ talk, dialogue "" (.take "b" rapidLimit 1) = .ok talk ∧
      (talk.play []).1 = [["EVALSHA", takeTokens.digest, "1", "b", "100", "1", "1", "1", "10"]] ∧
      10 < ⌈(rapidLimit.capacity.toNat : ℚ) / rapidLimit.refill.toNat⌉₊ * 1 := by
  refine ⟨⟨by decide, _, rfl, by decide +kernel, by decide⟩, ⟨by decide, _, rfl, by decide +kernel, by decide⟩,
    by decide, _, rfl, by decide +kernel, ?_⟩
  rw [rapidLimit_fills]
  decide

end Redis

end Turnstile
