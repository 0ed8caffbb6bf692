import Turnstile.Proofs.Binary64.Rounding

/-!
The exact value of every operation.

A finite double without a sign stands for one exact number. An operation on such doubles gives the double nearest to
the exact result, as long as that is far from the greatest double; a difference is taken where it has no sign. Whoever
knows the exact values can forget about mantissas and exponents from here on.

Numbers below zero and results past the greatest double are left out: counts of tokens never get there.
-/

namespace Turnstile

namespace Binary64

/-- The double without a sign that has a value. -/
def Is (x : Binary64) (q : ℚ) : Prop := Representable q ∧ ∃ m e, x = .finite false m e ∧ q = m * 2 ^ e

/-- One past the numbers that are surely rounded to a finite double. -/
def safeLimit : ℚ := 2 ^ (1023 : ℤ)

/-- No value is below zero, as the mantissa is a natural number. -/
theorem Is.nonneg {x : Binary64} {q : ℚ} (is : x.Is q) : 0 ≤ q := by
  obtain ⟨-, m, e, -, rfl⟩ := is
  positivity

/-- The double zero without a sign has the value zero. -/
theorem zero_is : (zero false).Is 0 :=
  ⟨by exact_mod_cast representable_natCast (Nat.zero_le exactLimit), 0, minExponent, rfl, by simp⟩

/-- A quotient in units of a power of two is rounded by whole numbers. The power is multiplied to the divisor or, if it
has a fraction, to the dividend. -/
theorem roundDiv_scaled (num : ℕ) {den : ℕ} (positive : 0 < den) (u : ℤ) :
    (if 0 ≤ u then roundDiv num (den * twoTo u.toNat) else roundDiv (num * twoTo (-u).toNat) den) =
      nearestWhole (num / den / 2 ^ u) := by
  rw [twoTo_eq, twoTo_eq]
  split_ifs with whole
  · obtain ⟨k, rfl⟩ := Int.eq_ofNat_of_zero_le whole
    rw [Int.toNat_natCast, roundDiv_eq num (Nat.mul_pos positive (Nat.two_pow_pos k)), zpow_natCast, div_div]
    push_cast
    rfl
  · obtain ⟨k, rfl⟩ : ∃ k : ℕ, u = -k := ⟨(-u).toNat, by omega⟩
    rw [neg_neg, Int.toNat_natCast, roundDiv_eq _ positive, zpow_neg, zpow_natCast, div_inv_eq_mul]
    push_cast
    rw [div_mul_eq_mul_div]

/-- The nearest double to a quotient has the rounded quotient for its value, as long as that is far from the greatest
double. The unit is found by comparing whole numbers, and the mantissa is made whole again when rounding has given it
one bit more. -/
theorem nearest_is {num den : ℕ} (positive : 0 < den) (small : (num : ℚ) / den < safeLimit) :
    (nearest false num den).Is (rounded (num / den)) := by
  unfold nearest
  by_cases none : num = 0
  · rw [if_pos none, none, Nat.cast_zero, zero_div, rounded_zero]
    exact zero_is
  · rw [if_neg none]
    have positive' : (0 : ℚ) < den := by exact_mod_cast positive
    have some : 0 < num := Nat.pos_of_ne_zero none
    have some' : (0 : ℚ) < num := by exact_mod_cast some
    have ratio : (0 : ℚ) < num / den := by positivity
    have unit : max minExponent (ratioLog2 num den - 52) = unitOf (num / den) := by
      rw [ratioLog2_eq some positive, unitOf]
    have low : unitOf ((num : ℚ) / den) ≤ 970 := unitOf_le_of_lt ratio (by decide) small
    have representable := rounded_representable ratio.le
    dsimp only
    rw [unit, roundDiv_scaled num positive]
    have top : ¬ maxExponent < unitOf ((num : ℚ) / den) + 1 := by
      unfold maxExponent
      omega
    by_cases full : nearestWhole (num / den / 2 ^ unitOf ((num : ℚ) / den)) = 2 * leastFull
    · rw [if_pos full]
      dsimp only
      rw [if_neg top]
      refine ⟨representable, leastFull, _, rfl, ?_⟩
      unfold rounded
      rw [full, zpow_add₀ two_ne_zero]
      push_cast
      ring
    · rw [if_neg full]
      dsimp only
      rw [if_neg (by omega)]
      exact ⟨representable, _, _, rfl, rfl⟩

/-- A whole number times a power of two is rounded as the quotient that it is. -/
theorem nearestScaled_is {m : ℕ} {e : ℤ} (small : (m : ℚ) * 2 ^ e < safeLimit) :
    (nearestScaled false m e).Is (rounded (m * 2 ^ e)) := by
  unfold nearestScaled
  rw [twoTo_eq, twoTo_eq]
  split_ifs with whole
  · obtain ⟨k, rfl⟩ := Int.eq_ofNat_of_zero_le whole
    have value : (m : ℚ) * 2 ^ (k : ℤ) = (m * 2 ^ k : ℕ) / (1 : ℕ) := by
      push_cast
      rw [div_one, zpow_natCast]
    rw [value] at small ⊢
    exact nearest_is one_pos small
  · obtain ⟨k, rfl⟩ : ∃ k : ℕ, e = -k := ⟨(-e).toNat, by omega⟩
    have value : (m : ℚ) * 2 ^ (-k : ℤ) = (m : ℕ) / (2 ^ k : ℕ) := by
      push_cast
      rw [zpow_neg, zpow_natCast, div_eq_mul_inv]
    rw [value] at small ⊢
    rw [neg_neg]
    exact nearest_is (Nat.two_pow_pos k) small

/-- A natural number becomes the double nearest to it. -/
theorem ofNat_is {n : ℕ} (small : (n : ℚ) < safeLimit) : (ofNat n).Is (rounded n) := by
  have small' : (n : ℚ) / (1 : ℕ) < safeLimit := by simpa using small
  have is := nearest_is one_pos small'
  rwa [Nat.cast_one, div_one] at is

/-- Counts of 53 bits are far from the greatest double, whose exponent is more than nine hundred beyond. -/
theorem count_below_safeLimit {q : ℚ} (small : q ≤ (exactLimit : ℕ)) : q < safeLimit := by
  apply small.trans_lt
  have less : (2 : ℚ) ^ 53 < 2 ^ 1023 := pow_lt_pow_right₀ one_lt_two (by decide)
  unfold exactLimit safeLimit
  exact_mod_cast less

/-- A whole number of at most 53 bits is exact: it is representable, so rounding leaves it as it is. -/
theorem ofNat_is_exact {n : ℕ} (small : n < exactLimit) : (ofNat n).Is n := by
  have is := ofNat_is (count_below_safeLimit (by exact_mod_cast small.le))
  rwa [(representable_natCast small.le).rounded_eq (Nat.cast_nonneg n)] at is

/-- Units of a value, counted without a sign: scaled back by the unit, the count gives the value. -/
theorem inUnits_value (m : ℕ) {e unit : ℤ} (fits : unit ≤ e) :
    ((m * twoTo (e - unit).toNat : ℕ) : ℚ) * 2 ^ unit = m * 2 ^ e := by
  rw [twoPow_units fits, ← mul_assoc, twoTo_eq]
  push_cast
  rfl

/-- What is rounded from below zero is at most zero. It is zero with a sign, a number with a sign, or infinity with one. -/
theorem nearest_le_zero (num den : ℕ) : (nearest true num den).le (ofNat 0) = true := by
  have below (m : ℕ) (e : ℤ) : (finite true m e).le (ofNat 0) = true := by
    apply decide_eq_true
    simp only [inUnits, if_true, Bool.false_eq_true, if_false, Nat.zero_mul]
    omega
  unfold nearest
  dsimp only
  split_ifs <;> first
    | exact below _ _
    | rfl

section

variable {x y : Binary64} {p q : ℚ} (left : x.Is p) (right : y.Is q)
include left right

/-- Doubles are compared as their values are. Both are counted in units of the lesser exponent, and nothing is rounded
for that. -/
theorem le_iff : x.le y = true ↔ p ≤ q := by
  obtain ⟨-, m, e, rfl, rfl⟩ := left
  obtain ⟨-, n, f, rfl, rfl⟩ := right
  have unit : (0 : ℚ) < 2 ^ min e f := by positivity
  rw [← inUnits_value m (min_le_left e f), ← inUnits_value n (min_le_right e f), mul_le_mul_iff_left₀ unit,
    Nat.cast_le]
  simp only [le, inUnits, Bool.false_eq_true, if_false, Int.ofNat_le, decide_eq_true_eq]

/-- The strict order of doubles is that of their values, for the same reason. -/
theorem lt_iff : x.lt y = true ↔ p < q := by
  obtain ⟨-, m, e, rfl, rfl⟩ := left
  obtain ⟨-, n, f, rfl, rfl⟩ := right
  have unit : (0 : ℚ) < 2 ^ min e f := by positivity
  rw [← inUnits_value m (min_le_left e f), ← inUnits_value n (min_le_right e f), mul_lt_mul_iff_left₀ unit,
    Nat.cast_lt]
  simp only [lt, inUnits, Bool.false_eq_true, if_false, Int.ofNat_lt, decide_eq_true_eq]

/-- The lesser of two doubles has the lesser of their values, since neither is a NaN. -/
theorem least_is : (x.least y).Is (min p q) := by
  have numbers : x.isNaN = false ∧ y.isNaN = false := by
    obtain ⟨-, m, e, rfl, -⟩ := left
    obtain ⟨-, n, f, rfl, -⟩ := right
    exact ⟨rfl, rfl⟩
  unfold least
  rw [numbers.1, numbers.2]
  rcases lt_or_ge q p with less | more
  · rw [min_eq_right less.le]
    simpa [(lt_iff right left).mpr less] using right
  · have kept : y.lt x = false := by
      rw [← Bool.not_eq_true, lt_iff right left]
      exact not_lt.mpr more
    rw [min_eq_left more]
    simpa [kept] using left

/-- The sum has the rounded sum of the values. The units of the lesser exponent are added exactly, and the result is
rounded once. -/
theorem add_is (small : p + q < safeLimit) : (x.add y).Is (rounded (p + q)) := by
  obtain ⟨-, m, e, rfl, rfl⟩ := left
  obtain ⟨-, n, f, rfl, rfl⟩ := right
  rw [← inUnits_value m (min_le_left e f), ← inUnits_value n (min_le_right e f), ← add_mul, ← Nat.cast_add] at small ⊢
  simp only [add, inUnits, Bool.false_eq_true, if_false, Bool.and_false]
  generalize m * twoTo (e - min e f).toNat = a at *
  generalize n * twoTo (f - min e f).toNat = b at *
  by_cases none : a + b = 0
  · rw [none, Nat.cast_zero, zero_mul, rounded_zero, if_pos (by omega)]
    exact zero_is
  · have sign : decide ((a : ℤ) + b < 0) = false := decide_eq_false (by omega)
    rw [if_neg (by omega), sign, show ((a : ℤ) + b).natAbs = a + b by omega]
    exact nearestScaled_is small

/-- The difference has the rounded difference of the values, where that is not below zero. The units are subtracted
exactly and the result is rounded once. -/
theorem sub_is (covered : q ≤ p) (small : p < safeLimit) : (x.sub y).Is (rounded (p - q)) := by
  obtain ⟨-, m, e, rfl, rfl⟩ := left
  obtain ⟨-, n, f, rfl, rfl⟩ := right
  have unit : (0 : ℚ) < 2 ^ min e f := by positivity
  rw [← inUnits_value m (min_le_left e f), ← inUnits_value n (min_le_right e f)] at covered ⊢
  rw [← inUnits_value m (min_le_left e f)] at small
  simp only [sub, neg, add, inUnits, Bool.false_eq_true, if_false, Bool.and_true, Bool.not_false, if_true]
  generalize m * twoTo (e - min e f).toNat = a at *
  generalize n * twoTo (f - min e f).toNat = b at *
  have covered' : b ≤ a := by exact_mod_cast le_of_mul_le_mul_right covered unit
  rw [← sub_mul, ← Nat.cast_sub covered']
  by_cases none : a - b = 0
  · rw [none, Nat.cast_zero, zero_mul, rounded_zero, if_pos (by omega)]
    exact zero_is
  · have sign : decide ((a : ℤ) + -(b : ℤ) < 0) = false := decide_eq_false (by omega)
    rw [if_neg (by omega), sign, show ((a : ℤ) + -(b : ℤ)).natAbs = a - b by omega]
    apply nearestScaled_is
    apply lt_of_le_of_lt _ small
    apply mul_le_mul_of_nonneg_right _ unit.le
    exact_mod_cast Nat.sub_le a b

omit right in
/-- A whole number is taken from a count without rounding, for the difference needs no more bits than the count has. -/
theorem sub_whole_is {n : ℕ} (right : y.Is n) (covered : (n : ℚ) ≤ p) (small : p ≤ (exactLimit : ℕ)) :
    (x.sub y).Is (p - n) := by
  have taken := sub_is left right covered (count_below_safeLimit small)
  rwa [(left.1.sub_whole covered small).rounded_eq (sub_nonneg.mpr covered)] at taken

/-- Where no less is taken than there is, nothing above zero is left: the units of the difference are zero or have a
sign. -/
theorem sub_le_zero (short : p ≤ q) (small : p < safeLimit) : (x.sub y).le (ofNat 0) = true := by
  rcases short.eq_or_lt with rfl | less
  · have nothing := sub_is left right (le_refl p) small
    rw [sub_self, rounded_zero] at nothing
    exact (le_iff nothing zero_is).mpr (le_refl 0)
  · obtain ⟨-, m, e, rfl, rfl⟩ := left
    obtain ⟨-, n, f, rfl, rfl⟩ := right
    have unit : (0 : ℚ) < 2 ^ min e f := by positivity
    rw [← inUnits_value m (min_le_left e f), ← inUnits_value n (min_le_right e f)] at less
    simp only [sub, neg, add, inUnits, Bool.false_eq_true, if_false, Bool.and_true, Bool.not_false, if_true]
    generalize m * twoTo (e - min e f).toNat = a at *
    generalize n * twoTo (f - min e f).toNat = b at *
    have less' : a < b := by exact_mod_cast lt_of_mul_lt_mul_right less unit.le
    have sign : decide ((a : ℤ) + -(b : ℤ) < 0) = true := decide_eq_true (by omega)
    rw [if_neg (by omega), sign]
    unfold nearestScaled
    split_ifs <;> exact nearest_le_zero _ _

/-- The product has the rounded product of the values. Mantissas are multiplied exactly and exponents are added. -/
theorem mul_is (small : p * q < safeLimit) : (x.mul y).Is (rounded (p * q)) := by
  obtain ⟨-, m, e, rfl, rfl⟩ := left
  obtain ⟨-, n, f, rfl, rfl⟩ := right
  have value : (m : ℚ) * 2 ^ e * (n * 2 ^ f) = (m * n : ℕ) * 2 ^ (e + f) := by
    rw [zpow_add₀ two_ne_zero]
    push_cast
    ring
  rw [value] at small ⊢
  exact nearestScaled_is small

/-- The quotient has the rounded quotient of the values. The exponents are subtracted, and the power that is left goes
to the dividend or to the divisor. -/
theorem div_is (positive : 0 < q) (small : p / q < safeLimit) : (x.div y).Is (rounded (p / q)) := by
  obtain ⟨-, m, e, rfl, rfl⟩ := left
  obtain ⟨-, n, f, rfl, rfl⟩ := right
  have some : n ≠ 0 := by
    rintro rfl
    simp at positive
  have some' : (n : ℚ) ≠ 0 := by exact_mod_cast some
  simp only [div, if_neg some, bne_self_eq_false, twoTo_eq]
  split_ifs with finer
  · have value : (m : ℚ) * 2 ^ e / (n * 2 ^ f) = (m * 2 ^ (e - f).toNat : ℕ) / n := by
      rw [twoPow_units finer]
      push_cast
      field_simp
    rw [value] at small ⊢
    exact nearest_is (Nat.pos_of_ne_zero some) small
  · have value : (m : ℚ) * 2 ^ e / (n * 2 ^ f) = m / (n * 2 ^ (f - e).toNat : ℕ) := by
      rw [twoPow_units (show e ≤ f by omega)]
      push_cast
      field_simp
    rw [value] at small ⊢
    exact nearest_is (Nat.mul_pos (Nat.pos_of_ne_zero some) (Nat.two_pow_pos _)) small

end

/-- The quotient that a double is has its value, with the power of two in the dividend or in the divisor. -/
theorem magnitude_value (m : ℕ) (e : ℤ) :
    0 < (magnitude m e).2 ∧ ((magnitude m e).1 : ℚ) / (magnitude m e).2 = m * 2 ^ e := by
  unfold magnitude
  rw [twoTo_eq, twoTo_eq]
  split_ifs with whole
  · obtain ⟨k, rfl⟩ := Int.eq_ofNat_of_zero_le whole
    constructor
    · exact one_pos
    · push_cast
      rw [div_one, Int.toNat_natCast, zpow_natCast]
  · obtain ⟨k, rfl⟩ : ∃ k : ℕ, e = -k := ⟨(-e).toNat, by omega⟩
    constructor
    · exact Nat.two_pow_pos _
    · push_cast
      rw [neg_neg, Int.toNat_natCast, zpow_neg, zpow_natCast, div_eq_mul_inv]

section

variable {x : Binary64} {q : ℚ} (is : x.Is q) (limit : ℕ)
include is

/-- Rounding up gives the least whole number that is not less than the value, or the limit where that is less. The whole
division rounds up by adding one less than the divisor. -/
theorem ceilWithin_is : x.ceilWithin limit = min limit ⌈q⌉₊ := by
  obtain ⟨-, m, e, rfl, rfl⟩ := is
  obtain ⟨positive, value⟩ := magnitude_value m e
  have ceil : ⌈((magnitude m e).1 : ℚ) / (magnitude m e).2⌉₊ =
      ((magnitude m e).1 + (magnitude m e).2 - 1) / (magnitude m e).2 := by
    have positive' : (0 : ℚ) < (magnitude m e).2 := by exact_mod_cast positive
    apply eq_of_forall_ge_iff
    intro n
    rw [Nat.ceil_le, div_le_iff₀ positive', Nat.div_le_iff_le_mul_add_pred positive, mul_comm]
    norm_cast
    omega
  rw [← value, ceil]
  rfl

/-- Rounding down gives the whole part of the value, or the limit where that is less. -/
theorem floorWithin_is : x.floorWithin limit = min limit ⌊q⌋₊ := by
  obtain ⟨-, m, e, rfl, rfl⟩ := is
  rw [← (magnitude_value m e).2, Nat.floor_div_eq_div]
  rfl

end

end Binary64

end Turnstile
