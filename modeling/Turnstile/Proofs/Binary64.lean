import Mathlib.Algebra.Order.Field.Power
import Mathlib.Algebra.Order.Field.Rat
import Mathlib.Data.Rat.Cast.Order
import Mathlib.Tactic.FieldSimp
import Mathlib.Tactic.Linarith
import Mathlib.Tactic.Positivity
import Mathlib.Tactic.Ring
import Turnstile.Limit

/-!
Bounds on rounded numbers.

A whole number of at most 53 bits is a double, so rounding a quotient does not lead past a whole number that
bounds it from above. What is computed from counts of tokens without a sign has no sign, and a quotient of a bounded
number by a count is bounded by the exact quotient rounded up. NaNs are beside all bounds: they count as no tokens
wherever a count is asked for.
-/

namespace Turnstile

/-- Rounding to the nearest whole number does not lead past a whole number that bounds the quotient. Below that number
one may round up and be at most there, and at that number nothing is left to round. -/
theorem roundDiv_le {num den n : Nat} (bounded : num ≤ n * den) : roundDiv num den ≤ n := by
  have split := Nat.div_add_mod num den
  have least : num / den ≤ n := Nat.div_le_of_le_mul (by rwa [Nat.mul_comm])
  unfold roundDiv
  rcases Nat.lt_or_eq_of_le least with below | reached
  · dsimp only
    split_ifs <;> omega
  · have exact : num % den = 0 := by
      rw [reached, Nat.mul_comm] at split
      omega
    dsimp only
    rw [exact]
    split_ifs with half more
    · exact least
    · omega
    · have none : den = 0 := by omega
      simp [none]

/-- A whole number is rounded to itself, as division by one leaves nothing over. -/
theorem roundDiv_one (n : Nat) : roundDiv n 1 = n := by
  simp [roundDiv, Nat.mod_one]

namespace Binary64

/-- One past the greatest count that every double around it can tell from its neighbours. -/
def exactLimit : Nat := 2 ^ 53

/-- A quotient below the limit of exact counts has all of its whole part in the mantissa: it is less than two to the
fifty-third, so its leading bit has at most the weight of two to the fifty-second. -/
theorem ratioLog2_le {num den n : Nat} (some : 0 < num) (bounded : num ≤ n * den) (small : n < exactLimit) :
    ratioLog2 num den ≤ 52 := by
  have below : num < den * 2 ^ 53 := by
    have room : n * den ≤ (2 ^ 53 - 1) * den := Nat.mul_le_mul_right den (by unfold exactLimit at small; omega)
    have positive : 0 < den := by
      rcases Nat.eq_zero_or_pos den with none | positive
      · subst none
        omega
      · exact positive
    omega
  by_contra past
  refine absurd below (Nat.not_lt.mpr ?_)
  have most (k : Nat) (large : 53 ≤ k) : den * 2 ^ 53 ≤ den * 2 ^ k :=
    Nat.mul_le_mul_left den (Nat.pow_le_pow_right (by decide) large)
  unfold ratioLog2 at past
  dsimp only at past
  split_ifs at past with positive reached reached
  · exact (most _ (by omega)).trans reached
  · have left : 2 ^ num.log2 ≤ num := Nat.log2_self_le (by omega)
    have right : den < 2 ^ (den.log2 + 1) := Nat.lt_log2_self
    have apart : den.log2 + 1 + 53 ≤ num.log2 := by omega
    calc den * 2 ^ 53 ≤ 2 ^ (den.log2 + 1) * 2 ^ 53 := Nat.mul_le_mul_right _ right.le
      _ = 2 ^ (den.log2 + 1 + 53) := (Nat.pow_add ..).symm
      _ ≤ 2 ^ num.log2 := Nat.pow_le_pow_right (by decide) apart
      _ ≤ num := left
  · omega
  · omega

/-- A quotient below the limit of exact counts is rounded at some binary place after the point. Its last bit weighs one
at most, so scaling by a power of two makes the rounding one to a whole number. -/
theorem nearest_eq (s : Bool) {num den n : Nat} (bounded : num ≤ n * den) (small : n < exactLimit) :
    ∃ m e k, nearest s num den = .finite s m e ∧ (m : ℚ) * 2 ^ e = roundDiv (num * 2 ^ k) den / 2 ^ k := by
  unfold nearest
  by_cases none : num = 0
  · refine ⟨0, minExponent, 0, if_pos none, ?_⟩
    simp [none, roundDiv]
  · rw [if_neg none]
    have least := ratioLog2_le (Nat.pos_of_ne_zero none) bounded small
    generalize is : max minExponent (ratioLog2 num den - 52) = exponent
    have nonpositive : exponent ≤ 0 := by
      have := is
      unfold minExponent at this
      omega
    obtain ⟨k, rfl⟩ : ∃ k : Nat, exponent = -k := ⟨(-exponent).toNat, by omega⟩
    have mantissa : (if 0 ≤ (-k : Int) then roundDiv num (den * twoTo (-k : Int).toNat)
        else roundDiv (num * twoTo (- -(k : Int)).toNat) den) = roundDiv (num * 2 ^ k) den := by
      rcases Nat.eq_zero_or_pos k with none | positive
      · subst none
        simp [twoTo]
      · rw [if_neg (by omega), neg_neg, Int.toNat_natCast]
        rfl
    dsimp only
    rw [mantissa]
    have top : ¬ maxExponent < (-k : Int) + 1 := by
      unfold maxExponent
      omega
    by_cases full : roundDiv (num * 2 ^ k) den = 2 * leastFull
    · refine ⟨leastFull, -k + 1, k, ?_, ?_⟩
      · simp [full, top]
      · rw [zpow_add₀ (by norm_num), zpow_neg, zpow_natCast, full]
        push_cast
        ring
    · refine ⟨roundDiv (num * 2 ^ k) den, -k, k, ?_, ?_⟩
      · have : ¬ maxExponent < (-k : Int) := by omega
        simp [full, this]
      · rw [zpow_neg, zpow_natCast, div_eq_mul_inv]

/-- A whole number of at most 53 bits is exact: no place after the point leaves anything to round. -/
theorem ofNat_eq {n : Nat} (small : n < exactLimit) :
    ∃ m e, ofNat n = .finite false m e ∧ (m : ℚ) * 2 ^ e = n := by
  obtain ⟨m, e, k, is, value⟩ := nearest_eq false (show n ≤ n * 1 by omega) small
  refine ⟨m, e, is, ?_⟩
  rw [value, roundDiv_one]
  push_cast
  field_simp

/-- A power of two with a fraction, counted in units of a lesser one. The number of units is the power of the difference
of the exponents. -/
theorem twoPow_units {e unit : Int} (fits : unit ≤ e) : (2 : ℚ) ^ e = 2 ^ (e - unit).toNat * 2 ^ unit := by
  rw [← zpow_natCast, ← zpow_add₀ (by norm_num), Int.toNat_of_nonneg (by omega), Int.sub_add_cancel]

/-- The order of exact counts is that of the numbers, for both are compared in units of the lesser exponent, and neither
was rounded. -/
theorem ofNat_le {m n : Nat} (ordered : m ≤ n) (small : n < exactLimit) : (ofNat m).le (ofNat n) = true := by
  obtain ⟨a, e, left, value⟩ := ofNat_eq (lt_of_le_of_lt ordered small)
  obtain ⟨b, f, right, value'⟩ := ofNat_eq small
  rw [left, right]
  refine decide_eq_true ?_
  generalize unit_is : min e f = unit
  have ordered : (m : ℚ) ≤ n := by exact_mod_cast ordered
  rw [← value, ← value', twoPow_units (show unit ≤ e by omega), twoPow_units (show unit ≤ f by omega), ← mul_assoc,
    ← mul_assoc] at ordered
  have ordered := le_of_mul_le_mul_right ordered (by positivity)
  have ordered : a * 2 ^ (e - unit).toNat ≤ b * 2 ^ (f - unit).toNat := by exact_mod_cast ordered
  simpa only [inUnits, twoTo, Nat.pow_eq, Bool.false_eq_true, if_false, Int.ofNat_le] using ordered

/-- A double whose value, as far as it has one above zero, is at most a whole number. -/
def AtMost (n : Nat) : Binary64 → Prop
  | .finite false m e => (m : ℚ) * 2 ^ e ≤ n
  | .infinity false => False
  | _ => True

/-- A quotient that is bounded by a whole number stays so when it is rounded. The bound is a whole number at every
binary place, and rounding does not lead past such a number. -/
theorem nearest_atMost (s : Bool) {num den n : Nat} (bounded : num ≤ n * den) (small : n < exactLimit) :
    (nearest s num den).AtMost n := by
  obtain ⟨m, e, k, is, value⟩ := nearest_eq s bounded small
  rw [is]
  cases s with
  | true => trivial
  | false =>
    have rounded : roundDiv (num * 2 ^ k) den ≤ n * 2 ^ k := by
      refine roundDiv_le ?_
      calc num * 2 ^ k ≤ n * den * 2 ^ k := Nat.mul_le_mul_right _ bounded
        _ = n * 2 ^ k * den := by ring
    have rounded : (roundDiv (num * 2 ^ k) den : ℚ) ≤ n * 2 ^ k := by exact_mod_cast rounded
    show (m : ℚ) * 2 ^ e ≤ n
    rw [value, div_le_iff₀ (by positivity)]
    exact rounded

/-- A number below zero is beside all bounds, whichever double it is rounded to. -/
theorem nearest_negative (num den n : Nat) : (nearest true num den).AtMost n := by
  unfold nearest
  dsimp only
  split_ifs <;> trivial

/-- Scaling by a power of two does not lead past a bound either. It is a rounded quotient whose divisor or dividend is a
power of two. -/
theorem nearestScaled_atMost (s : Bool) {m n : Nat} {e : Int} (bounded : (m : ℚ) * 2 ^ e ≤ n)
    (small : n < exactLimit) : (nearestScaled s m e).AtMost n := by
  unfold nearestScaled twoTo
  split_ifs with whole
  · refine nearest_atMost s ?_ small
    rw [twoPow_units whole] at bounded
    have bounded : (m * 2 ^ e.toNat : ℚ) ≤ n := by simpa using bounded
    rw [Nat.mul_one]
    exact_mod_cast bounded
  · refine nearest_atMost s ?_ small
    rw [show e = -((-e).toNat : Int) by omega, zpow_neg, zpow_natCast, ← div_eq_mul_inv,
      div_le_iff₀ (by positivity)] at bounded
    exact_mod_cast bounded

/-- A count of tokens: no number below zero. A NaN is one as well. -/
def Unsigned : Binary64 → Prop
  | .finite true .. | .infinity true => False
  | _ => True

/-- A count of tokens is a NaN, infinite, or a finite number without a sign. These three cases are what the operations
on counts are checked by. -/
theorem Unsigned.cases {x : Binary64} (unsigned : x.Unsigned) :
    (∃ s, x = .nan s) ∨ x = .infinity false ∨ ∃ m e, x = .finite false m e := by
  rcases x with s | (_ | _) | ⟨_ | _, m, e⟩
  · exact .inl ⟨s, rfl⟩
  · exact .inr (.inl rfl)
  · exact unsigned.elim
  · exact .inr (.inr ⟨m, e, rfl⟩)
  · exact unsigned.elim

/-- What is rounded without a sign has none: rounding only chooses the mantissa and the exponent. -/
theorem nearest_unsigned (num den : Nat) : (nearest false num den).Unsigned := by
  unfold nearest
  dsimp only
  split_ifs <;> trivial

/-- Scaling by a power of two brings in no sign, as it is rounding of a quotient without one. -/
theorem nearestScaled_unsigned (m : Nat) (e : Int) : (nearestScaled false m e).Unsigned := by
  unfold nearestScaled
  split_ifs <;> exact nearest_unsigned _ _

/-- Every natural number is a count. -/
theorem ofNat_unsigned (n : Nat) : (ofNat n).Unsigned := nearest_unsigned n 1

section

variable {x y : Binary64} (left : x.Unsigned) (right : y.Unsigned)
include left right

/-- The sum of two counts is a count. Two finite ones add up to no number below zero, and the other sums are infinite or
NaNs. -/
theorem add_unsigned : (x.add y).Unsigned := by
  obtain ⟨_, rfl⟩ | rfl | ⟨m, e, rfl⟩ := left.cases <;> obtain ⟨_, rfl⟩ | rfl | ⟨n, f, rfl⟩ := right.cases <;>
    try trivial
  have positive : ¬ inUnits false m e (min e f) + inUnits false n f (min e f) < 0 := by
    simp only [inUnits, Bool.false_eq_true, if_false]
    omega
  simp only [add, decide_eq_false positive]
  split_ifs
  · trivial
  · exact nearestScaled_unsigned _ _

/-- The product of two counts is a count. The signs agree, so none comes in, and infinity times zero is a NaN. -/
theorem mul_unsigned : (x.mul y).Unsigned := by
  obtain ⟨_, rfl⟩ | rfl | ⟨m, e, rfl⟩ := left.cases <;> obtain ⟨_, rfl⟩ | rfl | ⟨n, f, rfl⟩ := right.cases <;>
    try trivial
  · simp only [mul]
    split_ifs <;> trivial
  · simp only [mul]
    split_ifs <;> trivial
  · exact nearestScaled_unsigned _ _

/-- The quotient of two counts is a count, also where it is divided by zero: that gives infinity without a sign, or a
NaN. -/
theorem div_unsigned : (x.div y).Unsigned := by
  obtain ⟨_, rfl⟩ | rfl | ⟨m, e, rfl⟩ := left.cases <;> obtain ⟨_, rfl⟩ | rfl | ⟨n, f, rfl⟩ := right.cases <;>
    try trivial
  simp only [div]
  split_ifs
  · trivial
  · trivial
  · exact nearest_unsigned _ _
  · exact nearest_unsigned _ _

/-- The lesser of two counts is one of them, and so is what is chosen beside a NaN. -/
theorem least_unsigned : (x.least y).Unsigned := by
  unfold least
  split_ifs <;> assumption

/-- What is taken out of a count that covers it leaves a count: the difference of the units is not below zero. -/
theorem sub_unsigned (covered : y.le x = true) : (x.sub y).Unsigned := by
  obtain ⟨_, rfl⟩ | rfl | ⟨m, e, rfl⟩ := left.cases <;> obtain ⟨_, rfl⟩ | rfl | ⟨n, f, rfl⟩ := right.cases <;>
    try trivial
  have covered : inUnits false n f (min f e) ≤ inUnits false m e (min f e) := of_decide_eq_true covered
  have positive : ¬ inUnits false m e (min e f) + inUnits true n f (min e f) < 0 := by
    rw [Int.min_comm] at covered
    simp only [inUnits, Bool.false_eq_true, if_false, if_true] at covered ⊢
    omega
  simp only [sub, neg, Bool.not_false, add, decide_eq_false positive]
  split_ifs
  · trivial
  · exact nearestScaled_unsigned _ _

end

/-- What is missing of a count is at most that count. Where the tokens are fewer, the difference is bounded by the count
before it is rounded; where they are more, it is below zero and beside all bounds. -/
theorem sub_atMost {n : Nat} {x : Binary64} (unsigned : x.Unsigned) (small : n < exactLimit) :
    ((ofNat n).sub x).AtMost n := by
  obtain ⟨m, e, is, value⟩ := ofNat_eq small
  rw [is]
  obtain ⟨_, rfl⟩ | rfl | ⟨m', e', rfl⟩ := unsigned.cases
  · trivial
  · trivial
  · simp only [sub, neg, Bool.not_false, add]
    generalize unit_is : min e e' = unit
    generalize sum_is : inUnits false m e unit + inUnits true m' e' unit = sum
    rcases Int.lt_trichotomy sum 0 with negative | none | positive
    · rw [if_neg (by omega), decide_eq_true negative]
      unfold nearestScaled
      split_ifs <;> exact nearest_negative _ _ _
    · rw [if_pos none]
      show ((0 : Nat) : ℚ) * _ ≤ _
      simp
    · rw [if_neg (by omega)]
      refine nearestScaled_atMost _ ?_ small
      have less : sum.natAbs ≤ m * 2 ^ (e - unit).toNat := by
        simp only [inUnits, twoTo, Bool.false_eq_true, if_false, if_true, Nat.pow_eq] at sum_is
        omega
      have less : (sum.natAbs : ℚ) ≤ m * 2 ^ (e - unit).toNat := by exact_mod_cast less
      calc _ ≤ (m * 2 ^ (e - unit).toNat : ℚ) * 2 ^ unit := by gcongr
        _ = m * 2 ^ e := by rw [twoPow_units (show unit ≤ e by omega), mul_assoc]
        _ = n := value

/-- A quotient by a count is at most the exact one rounded up. That is a whole number that bounds the exact quotient,
and rounding does not lead past it. -/
theorem div_atMost {n r q : Nat} {x : Binary64} (bounded : x.AtMost n) (positive : 0 < r) (small : r < exactLimit)
    (covers : n ≤ q * r) (few : q < exactLimit) : (x.div (ofNat r)).AtMost q := by
  obtain ⟨m, e, is, value⟩ := ofNat_eq small
  have some : m ≠ 0 := by
    rintro rfl
    have : (r : ℚ) = 0 := by rw [← value]; simp
    have : r = 0 := by exact_mod_cast this
    omega
  rw [is]
  rcases x with _ | (_ | _) | ⟨_ | _, m', e'⟩
  · trivial
  · exact bounded.elim
  · trivial
  · have bounded : (m' : ℚ) * 2 ^ e' ≤ q * (m * 2 ^ e) := by
      rw [value]
      exact le_trans bounded (by exact_mod_cast covers)
    simp only [div, if_neg some, twoTo, Nat.pow_eq]
    split_ifs with finer
    · refine nearest_atMost _ ?_ few
      rw [twoPow_units finer, ← mul_assoc, ← mul_assoc] at bounded
      have bounded := le_of_mul_le_mul_right bounded (by positivity)
      exact_mod_cast bounded
    · refine nearest_atMost _ ?_ few
      rw [twoPow_units (show e' ≤ e by omega), ← mul_assoc, ← mul_assoc] at bounded
      have bounded := le_of_mul_le_mul_right bounded (by positivity)
      rw [mul_assoc] at bounded
      exact_mod_cast bounded
  · simp only [div, if_neg some]
    split_ifs <;> exact nearest_negative _ _ _

/-- A number rounded up does not lead past a whole number that bounds it, and the limit on what is rounded up only makes
it less. -/
theorem ceilWithin_le (limit : Nat) {n : Nat} {x : Binary64} (bounded : x.AtMost n) : x.ceilWithin limit ≤ n := by
  rcases x with _ | (_ | _) | ⟨_ | _, m, e⟩
  · exact Nat.zero_le n
  · exact bounded.elim
  · exact Nat.zero_le n
  · have bounded : (m : ℚ) * 2 ^ e ≤ n := bounded
    simp only [ceilWithin, magnitude, twoTo, Nat.pow_eq]
    split_ifs with whole
    · rw [twoPow_units whole] at bounded
      have bounded : (m * 2 ^ e.toNat : ℚ) ≤ n := by simpa using bounded
      have bounded : m * 2 ^ e.toNat ≤ n := by exact_mod_cast bounded
      exact (Nat.min_le_right _ _).trans (by simpa using bounded)
    · rw [show e = -((-e).toNat : Int) by omega, zpow_neg, zpow_natCast, ← div_eq_mul_inv,
        div_le_iff₀ (by positivity)] at bounded
      have bounded : m ≤ n * 2 ^ (-e).toNat := by exact_mod_cast bounded
      have positive : 0 < 2 ^ (-e).toNat := Nat.two_pow_pos _
      refine (Nat.min_le_right _ _).trans (Nat.lt_succ_iff.mp ((Nat.div_lt_iff_lt_mul positive).mpr ?_))
      rw [Nat.succ_mul]
      omega
  · exact Nat.zero_le n

end Binary64

end Turnstile
