import Turnstile.Proofs.Bucket.Exact
import Turnstile.Proofs.Service.Forecast

/-!
Buckets within their bounds.

One bucket is asked for tokens again and again. Costs may be beyond its capacity, and the clock may go back between two
takes. The main statement is what every one of these takes finds and leaves: tokens between none and the capacity, as of
the latest moment that has been seen; a refill that brings what the time since then has brought and is cut off at the
capacity; and a cost that is deducted as a whole or not at all.

It is told for two kinds of numbers at once. A `TokenReading` says which exact number a machine's number stands for, what
a span of time brings, and how two numbers are added. In the exact reading nothing is rounded. In doubles both the gain
and the sum are rounded, but what is on hand is still an exact number: rounding keeps the order, so a refill never loses
tokens and never passes the capacity, and a whole cost is deducted without rounding. What both readings have in common is
`TokenReading.Faithful`, and the law of a bucket is proved from that alone.

Whether the wait that is reported has a span is left open: a cost that is far too high may have none.
-/

namespace Turnstile

open Binary64

/-- How numbers are read as tokens. -/
structure TokenReading (α : Type) where
  /-- The exact number that a number stands for. -/
  counts : α → ℚ → Prop
  /-- What a limit brings in some nanoseconds. -/
  gained : Limit → ℕ → ℚ
  /-- What two numbers come to. -/
  sum : ℚ → ℚ → ℚ

namespace TokenReading

/-- Every number that is not below zero stands for itself. -/
def exact : TokenReading ℚ where
  counts tokens held := 0 ≤ held ∧ tokens = held
  gained l elapsed := elapsed * l.speed
  sum := (· + ·)

/-- Doubles, where gains and sums are rounded. -/
def doubles : TokenReading Binary64 where
  counts := Binary64.Is
  gained := Limit.gains
  sum held gained := rounded (held + gained)

/-- What is on hand after some time. -/
def refilled {α : Type} (reading : TokenReading α) (l : Limit) (held : ℚ) (elapsed : ℕ) : ℚ :=
  min (reading.sum held (reading.gained l elapsed)) l.capacity.toNat

/-- What makes a reading fit for buckets of a limit. -/
structure Faithful {α : Type} [TokenNumber α] (reading : TokenReading α) (l : Limit) : Prop where
  full (now : Moment) : reading.counts (Bucket.full l now : Bucket α).tokens l.capacity.toNat
  unsigned {tokens : α} {held : ℚ} (counts : reading.counts tokens held) : 0 ≤ held
  still {tokens : α} {held : ℚ} (counts : reading.counts tokens held) : reading.sum held (reading.gained l 0) = held
  grows {tokens : α} {held : ℚ} (counts : reading.counts tokens held) (elapsed : ℕ) :
    held ≤ reading.sum held (reading.gained l elapsed)
  refills {b : Bucket α} {held : ℚ} {now : Moment} (counts : reading.counts b.tokens held) (within : held ≤ l.capacity.toNat)
    (shown : now.nanos < Moment.secondsLimit * nanosPerSecond) (moved : now.since b.asOf ≠ 0) :
    reading.counts (b.refill l now).tokens (reading.refilled l held (now.since b.asOf))
  covers {b : Bucket α} {held : ℚ} (counts : reading.counts b.tokens held) (cost : UInt32) :
    b.covers cost = true ↔ (cost.toNat : ℚ) ≤ held
  spends {b : Bucket α} {held : ℚ} (counts : reading.counts b.tokens held) (within : held ≤ l.capacity.toNat) (cost : UInt32) :
    reading.counts (b.spend cost).tokens (if (cost.toNat : ℚ) ≤ held then held - cost.toNat else held)
  floors {tokens : α} {held : ℚ} (counts : reading.counts tokens held) (within : held ≤ l.capacity.toNat) :
    TokenNumber.floorWithin maxLongCount tokens = ⌊held⌋₊

variable {l : Limit}

/-- The whole part of what a bucket holds is within the counts that can be reported, as no capacity has more than 32
bits. -/
theorem floor_le_maxLongCount {held : ℚ} (within : held ≤ l.capacity.toNat) : ⌊held⌋₊ ≤ maxLongCount := by
  apply (Nat.floor_le_of_le within).trans
  have small := l.capacity.toNat_lt
  unfold maxLongCount word64Limit
  omega

/-- Exact numbers are fit for every usable limit. Nothing is rounded, so each part is the arithmetic of a bucket that
counts exactly. -/
theorem exact_faithful (usable : l.fault? = none) : exact.Faithful l where
  full _ := ⟨Nat.cast_nonneg _, rfl⟩
  unsigned counts := counts.1
  still _ := by simp only [exact, Nat.cast_zero, zero_mul, add_zero]
  grows _ elapsed := le_add_of_nonneg_right (mul_nonneg (Nat.cast_nonneg elapsed) l.speed_nonneg)
  refills := by
    rintro b held now ⟨unsigned, rfl⟩ - - moved
    rw [Bucket.refill_moved (Limit.usable_pos usable).2 moved]
    refine ⟨le_min (add_nonneg unsigned (mul_nonneg (Nat.cast_nonneg _) l.speed_nonneg)) (Nat.cast_nonneg _), rfl⟩
  covers := by
    rintro b held ⟨-, rfl⟩ cost
    exact decide_eq_true_iff
  spends := by
    rintro b held ⟨unsigned, rfl⟩ - cost
    have covers : b.covers cost = true ↔ (cost.toNat : ℚ) ≤ b.tokens := decide_eq_true_iff
    unfold Bucket.spend
    by_cases covered : (cost.toNat : ℚ) ≤ b.tokens
    · rw [if_pos covered, if_pos (covers.mpr covered)]
      exact ⟨sub_nonneg.mpr covered, rfl⟩
    · rw [if_neg covered, if_neg (mt covers.mp covered)]
      exact ⟨unsigned, rfl⟩
  floors := by
    rintro tokens held ⟨-, rfl⟩ within
    exact min_eq_right (floor_le_maxLongCount within)

/-- Doubles are fit for every usable limit, too. Rounding keeps the order, leaves a capacity and a difference of whole
costs as they are, and all numbers here are far from the greatest double. -/
theorem doubles_faithful (usable : l.fault? = none) : doubles.Faithful l where
  full _ := ofNat_is_exact (Limit.count_exact l.capacity)
  unsigned counts := counts.nonneg
  still counts := by
    simp only [doubles, l.gains_zero, add_zero]
    exact counts.1.rounded_eq counts.nonneg
  grows counts elapsed := le_rounded counts.nonneg counts.1 (le_add_of_nonneg_right (l.gains_nonneg elapsed))
  refills counts within shown moved :=
    (Bucket.refilled_is (Limit.usable_pos usable).2 counts (within.trans (Limit.count_le _)) shown moved).1
  covers counts cost := le_iff (ofNat_is_exact (Limit.count_exact cost)) counts
  spends counts within cost := (Bucket.spend_is counts (within.trans (Limit.count_le _)) cost).2
  floors counts within := by
    change Binary64.floorWithin maxLongCount _ = _
    rw [floorWithin_is counts]
    exact min_eq_right (floor_le_maxLongCount within)

end TokenReading

namespace Moment

/-- The latest of some moments. -/
def IsLatest (latest : Moment) (seen : List Moment) : Prop := latest ∈ seen ∧ ∀ moment ∈ seen, moment ≤ latest

variable {latest now : Moment} {seen : List Moment}

/-- The clock may go back: then the latest moment is still the latest. -/
theorem IsLatest.still (isLatest : latest.IsLatest seen) (back : now ≤ latest) : latest.IsLatest (seen ++ [now]) := by
  refine ⟨List.mem_append_left _ isLatest.1, ?_⟩
  intro moment among
  rcases List.mem_append.mp among with before | last
  · exact isLatest.2 moment before
  · rwa [List.mem_singleton.mp last]

/-- When the clock has gone on, the present is the latest moment. -/
theorem IsLatest.moved (isLatest : latest.IsLatest seen) (ahead : latest ≤ now) : now.IsLatest (seen ++ [now]) := by
  refine ⟨List.mem_append_right _ (List.mem_singleton_self now), ?_⟩
  intro moment among
  rcases List.mem_append.mp among with before | last
  · exact Nat.le_trans (isLatest.2 moment before) ahead
  · exact Nat.le_of_eq (congrArg Moment.nanos (List.mem_singleton.mp last))

end Moment

namespace Bucket

variable {α : Type} [TokenNumber α] {l : Limit}

/-- What takes leave of a bucket, first to last. -/
def afterTakes (b : Bucket α) (l : Limit) (takes : List (Moment × UInt32)) : Bucket α :=
  takes.foldl (fun b take => (b.take l take.2 take.1).1) b

/-- Tokens between none and the capacity, as of the latest moment that has been seen. -/
structure Bounded (reading : TokenReading α) (l : Limit) (b : Bucket α) (seen : List Moment) (held : ℚ) : Prop where
  counts : reading.counts b.tokens held
  within : held ≤ l.capacity.toNat
  asOf : b.asOf.IsLatest seen

/-- What a take finds in a bucket, what a refill makes of that, and what is left. -/
structure TakesWithin (reading : TokenReading α) (l : Limit) (b : Bucket α) (seen : List Moment) (cost : UInt32)
    (now : Moment) (before held left : ℚ) : Prop where
  found : reading.counts b.tokens before
  refilled : reading.counts (b.refill l now).tokens held
  remains : reading.counts (b.take l cost now).1.tokens left
  unsigned : 0 ≤ left
  within : left ≤ l.capacity.toNat
  asOf : (b.take l cost now).1.asOf.IsLatest (seen ++ [now])
  /-- A refill brings what the time since the latest moment has brought, up to the capacity. -/
  brought : held = min (reading.sum before (reading.gained l (now.since b.asOf))) l.capacity.toNat
  grows : before ≤ held
  deducted : (cost.toNat : ℚ) ≤ held → left = held - cost.toNat
  spared : held < cost.toNat → left = held ∧ (b.take l cost now).1 = b.refill l now
  whole : ⌊left⌋₊ ≤ l.capacity.toNat
  /-- As long as the wait has a span, the take is answered. -/
  answered : ∀ wait, l.waitFor (b.take l cost now).1.tokens cost = .ok wait →
    (b.take l cost now).2 = .ok ⟨decide ((cost.toNat : ℚ) ≤ held), ⌊left⌋₊, wait.nanos % word64Limit⟩

variable {reading : TokenReading α} {b : Bucket α} {seen : List Moment} {held : ℚ} {now : Moment}

/-- A bucket that is created full is bounded: it holds the capacity as of the only moment there is. -/
theorem full_bounded (faithful : reading.Faithful l) (created : Moment) :
    Bounded reading l (full l created) [created] l.capacity.toNat where
  counts := faithful.full created
  within := le_refl _
  asOf := ⟨List.mem_singleton_self created, fun _ same => Nat.le_of_eq (congrArg Moment.nanos (List.mem_singleton.mp same))⟩

/-- A refill of a bounded bucket leaves it bounded. If the clock has gone back or stands still, it leaves the bucket as
it is; else it brings what is cut off at the capacity, as of the present. -/
theorem Bounded.refill (faithful : reading.Faithful l) (bounded : Bounded reading l b seen held)
    (shown : now.nanos < Moment.secondsLimit * nanosPerSecond) :
    Bounded reading l (b.refill l now) (seen ++ [now]) (reading.refilled l held (now.since b.asOf)) := by
  by_cases still : now.since b.asOf = 0
  · have same : b.refill l now = b := if_pos still
    have kept : reading.refilled l held 0 = held := by
      unfold TokenReading.refilled
      rw [faithful.still bounded.counts, min_eq_left bounded.within]
    rw [same, still, kept]
    exact {
      counts := bounded.counts
      within := bounded.within
      asOf := bounded.asOf.still (Nat.le_of_sub_eq_zero still) }
  · have asOf : (b.refill l now).asOf = now := by
      unfold Bucket.refill
      rw [if_neg still]
    have moved : now.IsLatest (seen ++ [now]) := bounded.asOf.moved (Nat.le_of_lt (Nat.lt_of_sub_ne_zero still))
    exact {
      counts := faithful.refills bounded.counts bounded.within shown still
      within := min_le_right _ _
      asOf := asOf.symm ▸ moved }

/-- Spending leaves a bounded bucket bounded, for it deducts a cost that is covered and nothing elsewhere. -/
theorem Bounded.spend (faithful : reading.Faithful l) (bounded : Bounded reading l b seen held) (cost : UInt32) :
    Bounded reading l (b.spend cost) seen (if (cost.toNat : ℚ) ≤ held then held - cost.toNat else held) where
  counts := faithful.spends bounded.counts bounded.within cost
  within := by
    have costs : (0 : ℚ) ≤ cost.toNat := Nat.cast_nonneg _
    split_ifs <;> linarith [bounded.within]
  asOf := by
    rw [spend_asOf]
    exact bounded.asOf

/-- The step: a take of a bounded bucket keeps to the law and leaves the bucket bounded. It is a refill and a spending,
and each part of the law is read off one of them. -/
theorem Bounded.take (faithful : reading.Faithful l) (bounded : Bounded reading l b seen held) (cost : UInt32)
    (shown : now.nanos < Moment.secondsLimit * nanosPerSecond) :
    ∃ refilled left, TakesWithin reading l b seen cost now held refilled left ∧
      Bounded reading l (b.take l cost now).1 (seen ++ [now]) left := by
  have refilled := bounded.refill faithful shown
  have spent := refilled.spend faithful cost
  have covers := faithful.covers refilled.counts cost
  generalize brought : reading.refilled l held (now.since b.asOf) = more at refilled spent covers
  refine ⟨more, _, ?_, spent⟩
  constructor
  case found => exact bounded.counts
  case refilled => exact refilled.counts
  case remains => exact spent.counts
  case unsigned => exact faithful.unsigned spent.counts
  case within => exact spent.within
  case asOf => exact spent.asOf
  case brought => exact brought.symm
  case grows => exact brought ▸ le_min (faithful.grows bounded.counts _) bounded.within
  case deducted => exact fun covered => if_pos covered
  case spared =>
    intro short
    have uncovered : ¬ (cost.toNat : ℚ) ≤ more := not_le.mpr short
    exact ⟨if_neg uncovered, if_neg (mt covers.mp uncovered)⟩
  case whole => exact Nat.floor_le_of_le spent.within
  case answered =>
    intro wait waits
    have granted : (b.refill l now).covers cost = decide ((cost.toNat : ℚ) ≤ more) :=
      Bool.eq_iff_iff.mpr (covers.trans decide_eq_true_iff.symm)
    simp only [Bucket.take] at waits ⊢
    simp only [report, waits, granted, faithful.floors spent.counts spent.within]

/-- The run: takes of a bounded bucket leave it bounded, with their moments added to those that have been seen. -/
theorem Bounded.afterTakes (faithful : reading.Faithful l) (bounded : Bounded reading l b seen held)
    {takes : List (Moment × UInt32)}
    (shown : ∀ take ∈ takes, take.1.nanos < Moment.secondsLimit * nanosPerSecond) :
    ∃ left, Bounded reading l (b.afterTakes l takes) (seen ++ takes.map Prod.fst) left := by
  induction takes generalizing b seen held with
  | nil => exact ⟨held, by simpa [Bucket.afterTakes] using bounded⟩
  | cons first rest inductionHypothesis =>
    obtain ⟨now, cost⟩ := first
    obtain ⟨-, left, -, remains⟩ := bounded.take faithful cost (shown _ List.mem_cons_self)
    have after := inductionHypothesis remains fun take among => shown take (List.mem_cons_of_mem _ among)
    rwa [List.append_assoc] at after

/-- After any takes, the next one keeps to the law, whichever faithful reading the tokens are read in. -/
theorem takes_within (faithful : reading.Faithful l) (created : Moment) {earlier : List (Moment × UInt32)}
    (cost : UInt32) (shown : ∀ take ∈ earlier ++ [(now, cost)], take.1.nanos < Moment.secondsLimit * nanosPerSecond) :
    ∃ before held left, TakesWithin reading l ((full l created : Bucket α).afterTakes l earlier)
      (created :: earlier.map Prod.fst) cost now before held left := by
  obtain ⟨before, bounded⟩ := (full_bounded faithful created).afterTakes faithful
    fun take among => shown take (List.mem_append_left _ among)
  obtain ⟨held, left, takes, -⟩ := bounded.take faithful cost (shown (now, cost) List.mem_concat_self)
  exact ⟨before, held, left, takes⟩

/-- Tokens stay within bounds. Take a usable limit, a bucket of it that is created full, and any list of takes of it with
any costs, at any moments that a clock can show and in any order. Each take, whatever takes were `earlier`, leaves
between none and as many tokens as the capacity, as of the latest of the creation and all moments so far; the refill
before it has brought what the time since then has brought, cut off at the capacity; a cost that is covered is deducted
exactly, and any other deducts nothing; and if the wait that belongs to the answer has a span, the answer says
whether the cost was covered and the whole part of what is left. This holds for doubles, and for exact numbers. -/
theorem tokens_stay_within_bounds (usable : l.fault? = none) (created : Moment) (earlier : List (Moment × UInt32))
    (now : Moment) (cost : UInt32)
    (shown : ∀ take ∈ earlier ++ [(now, cost)], take.1.nanos < Moment.secondsLimit * nanosPerSecond) :
    (∃ before held left, TakesWithin .doubles l ((full l created).afterTakes l earlier)
      (created :: earlier.map Prod.fst) cost now before held left) ∧
    (∃ before held left, TakesWithin .exact l ((full l created).afterTakes l earlier)
      (created :: earlier.map Prod.fst) cost now before held left) :=
  ⟨takes_within (TokenReading.doubles_faithful usable) created cost shown,
    takes_within (TokenReading.exact_faithful usable) created cost shown⟩

/-- All tokens at once, a cost beyond the capacity after the clock went back, and a look. -/
def unsteadyTakes : List (Moment × UInt32) := [(⟨7000000000⟩, 5), (⟨3000000000⟩, 9), (⟨8500000000⟩, 0)]

/-- Five tokens are taken, the clock goes back and too much is asked for, and then one looks. The next take finds
between none and five tokens as of the latest of these moments, and is granted. -/
theorem tokens_stay_within_bounds_unsteadyTakes :
    let l : Limit := ⟨5, 3, .ofSeconds 10⟩
    let found : Bucket Binary64 := (full l ⟨5000000000⟩).afterTakes l unsteadyTakes
    (∃ before held left, TakesWithin .doubles l found (⟨5000000000⟩ :: unsteadyTakes.map Prod.fst) 1 ⟨14000000000⟩ before held left) ∧
      (found.take l 1 ⟨14000000000⟩).1.asOf = ⟨14000000000⟩ ∧
      (found.take l 1 ⟨14000000000⟩).2 = .ok ⟨true, 1, 0⟩ := by
  intro l found
  have usable : l.fault? = none := by decide
  exact ⟨(tokens_stay_within_bounds usable ⟨5000000000⟩ unsteadyTakes ⟨14000000000⟩ 1 (by decide)).1, by decide +kernel,
    by decide +kernel⟩

end Bucket

end Turnstile
