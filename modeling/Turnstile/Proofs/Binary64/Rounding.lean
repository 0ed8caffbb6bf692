import Mathlib.Algebra.Order.Floor.Semifield
import Mathlib.Data.Int.Log
import Mathlib.Data.Rat.Floor
import Turnstile.Proofs.Binary64

/-!
Rounding as a function on exact numbers.

A double is a whole number of at most 53 bits times a power of two that is not too small. `rounded` takes a number
without a sign to the double nearest to it: the unit is the weight of the last of its 53 bits, or the least weight
there is, and the number of units is rounded to the nearest whole number, a tie to the even one.

All that is used of rounding elsewhere is here. It keeps the order, it leaves doubles as they are, and it changes a
number by at most half a unit. Nothing here says when a number is too great for a double.
-/

namespace Turnstile

namespace Binary64

/-- The powers that the operations compute are the powers of two. -/
theorem twoTo_eq (n : ℕ) : twoTo n = 2 ^ n := rfl

/-- The natural nearest to a number without a sign; a tie goes to the even neighbour. -/
def nearestWhole (q : ℚ) : ℕ :=
  let below := ⌊q⌋₊
  if q - below < 1 / 2 then below
  else if 1 / 2 < q - below then below + 1
  else below + below % 2

/-- Division that rounds to the nearest whole number is rounding of the exact quotient. The remainder is compared with
half of the divisor, which is the fraction compared with a half. -/
theorem roundDiv_eq (num : ℕ) {den : ℕ} (positive : 0 < den) : roundDiv num den = nearestWhole (num / den) := by
  have positive' : (0 : ℚ) < den := by exact_mod_cast positive
  have split : (den : ℚ) * (num / den : ℕ) + (num % den : ℕ) = num := by exact_mod_cast Nat.div_add_mod num den
  have fraction : (num : ℚ) / den - (num / den : ℕ) = (num % den : ℕ) / den := by
    rw [eq_div_iff positive'.ne', sub_mul, div_mul_cancel₀ _ positive'.ne']
    linarith
  have less : (num : ℚ) / den - (num / den : ℕ) < 1 / 2 ↔ 2 * (num % den) < den := by
    rw [fraction, div_lt_div_iff₀ positive' two_pos, one_mul, mul_comm]
    exact_mod_cast Iff.rfl
  have more : 1 / 2 < (num : ℚ) / den - (num / den : ℕ) ↔ den < 2 * (num % den) := by
    rw [fraction, div_lt_div_iff₀ two_pos positive', one_mul, mul_comm ((num % den : ℕ) : ℚ)]
    exact_mod_cast Iff.rfl
  unfold roundDiv nearestWhole
  simp only [Nat.floor_div_eq_div, less, more]

/-- Rounding to a whole number changes a number by at most a half, a tie included, as both neighbours are a half away
from it. -/
theorem nearestWhole_error {q : ℚ} (unsigned : 0 ≤ q) : |(nearestWhole q : ℚ) - q| ≤ 1 / 2 := by
  have below := Nat.floor_le unsigned
  have above := Nat.lt_floor_add_one q
  have even : ((⌊q⌋₊ % 2 : ℕ) : ℚ) ≤ 1 := by exact_mod_cast Nat.le_of_lt_succ (Nat.mod_lt _ two_pos)
  have even' : (0 : ℚ) ≤ (⌊q⌋₊ % 2 : ℕ) := Nat.cast_nonneg _
  unfold nearestWhole
  dsimp only
  rw [abs_le]
  split_ifs with less more <;> constructor <;> push_cast at * <;> linarith

/-- A whole number is rounded to itself, for it has no fraction. -/
theorem nearestWhole_natCast (n : ℕ) : nearestWhole n = n := by
  simp [nearestWhole]

/-- Rounding to whole numbers keeps the order. Each number moves by at most a half, so two numbers that were rounded
past each other would be one number. -/
theorem nearestWhole_mono {p q : ℚ} (unsigned : 0 ≤ p) (ordered : p ≤ q) : nearestWhole p ≤ nearestWhole q := by
  by_contra crossed
  have crossed' : (nearestWhole q : ℚ) + 1 ≤ nearestWhole p := by exact_mod_cast Nat.lt_of_not_le crossed
  have left := abs_le.mp (nearestWhole_error unsigned)
  have right := abs_le.mp (nearestWhole_error (unsigned.trans ordered))
  have same : p = q := by linarith
  apply crossed
  rw [same]

/-- A number from half below an even number on is rounded up to that number at least. Only the tie is in question, and a
tie goes to the even neighbour. -/
theorem le_nearestWhole {n : ℕ} {q : ℚ} (even : n % 2 = 0) (unsigned : 0 ≤ q) (near : (n : ℚ) - 1 / 2 ≤ q) :
    n ≤ nearestWhole q := by
  by_contra short
  have short' : (nearestWhole q : ℚ) + 1 ≤ n := by exact_mod_cast Nat.lt_of_not_le short
  have error := abs_le.mp (nearestWhole_error unsigned)
  have tie : q = n - 1 / 2 := by linarith
  obtain ⟨k, rfl⟩ : ∃ k, n = k + 1 := ⟨n - 1, by omega⟩
  have value : q = k + 1 / 2 := by
    rw [tie]
    push_cast
    ring
  have floor : ⌊q⌋₊ = k := by
    rw [Nat.floor_eq_iff unsigned, value]
    constructor <;> linarith
  apply short
  unfold nearestWhole
  simp only [floor]
  rw [value, add_sub_cancel_left, if_neg (lt_irrefl _), if_neg (lt_irrefl _)]
  omega

/-- Whether a quotient reaches a power of two can be asked in whole numbers: the power is multiplied to the side on
which it is whole. -/
theorem reaches_iff (num : ℕ) {den : ℕ} (positive : 0 < den) (z : ℤ) :
    (if 0 ≤ z then den * twoTo z.toNat ≤ num else den ≤ num * twoTo (-z).toNat) ↔ (2 : ℚ) ^ z ≤ num / den := by
  have positive' : (0 : ℚ) < den := by exact_mod_cast positive
  rw [le_div_iff₀ positive', twoTo_eq, twoTo_eq]
  split_ifs with whole
  · obtain ⟨k, rfl⟩ := Int.eq_ofNat_of_zero_le whole
    rw [Int.toNat_natCast, zpow_natCast, mul_comm]
    exact_mod_cast Iff.rfl
  · obtain ⟨k, rfl⟩ : ∃ k : ℕ, z = -k := ⟨(-z).toNat, by omega⟩
    rw [neg_neg, Int.toNat_natCast, zpow_neg, zpow_natCast, inv_mul_le_iff₀ (by positivity), mul_comm ((2 : ℚ) ^ k)]
    exact_mod_cast Iff.rfl

/-- The logarithm is the one exponent whose power is reached and whose next power is not. Powers of two grow, so there
is no other. -/
theorem eq_log {q : ℚ} {z : ℤ} (reached : 2 ^ z ≤ q) (short : q < 2 ^ (z + 1)) : z = Int.log 2 q := by
  have positive : 0 < q := lt_of_lt_of_le (by positivity) reached
  have lower := (Int.zpow_le_iff_le_log one_lt_two positive).mp (by exact_mod_cast reached)
  have upper := (Int.lt_zpow_iff_log_lt one_lt_two positive).mp (by exact_mod_cast short)
  omega

/-- The logarithm of a quotient is found by one comparison. The leading bits of the two numbers leave two candidates,
and the greater one is taken if its power is reached. -/
theorem ratioLog2_eq {num den : ℕ} (some : 0 < num) (positive : 0 < den) :
    ratioLog2 num den = Int.log 2 ((num : ℚ) / den) := by
  have positive' : (0 : ℚ) < den := by exact_mod_cast positive
  have least (n : ℕ) (nonzero : 0 < n) : (2 : ℚ) ^ (n.log2 : ℤ) ≤ n := by
    rw [zpow_natCast]
    exact_mod_cast Nat.log2_self_le (Nat.pos_iff_ne_zero.mp nonzero)
  have most (n : ℕ) : (n : ℚ) < 2 ^ (n.log2 + 1 : ℤ) := by
    have : n < 2 ^ (n.log2 + 1) := Nat.lt_log2_self
    exact_mod_cast this
  have above : (num : ℚ) / den < 2 ^ ((num.log2 : ℤ) - den.log2 + 1) := by
    rw [div_lt_iff₀ positive']
    calc (num : ℚ) < 2 ^ ((num.log2 : ℤ) + 1) := most num
      _ = 2 ^ ((num.log2 : ℤ) - den.log2 + 1) * 2 ^ (den.log2 : ℤ) := by
        rw [← zpow_add₀ two_ne_zero]
        congr 1
        ring
      _ ≤ 2 ^ ((num.log2 : ℤ) - den.log2 + 1) * den := by
        gcongr
        exact least den positive
  have below : (2 : ℚ) ^ ((num.log2 : ℤ) - den.log2 - 1) ≤ num / den := by
    rw [le_div_iff₀ positive']
    calc (2 : ℚ) ^ ((num.log2 : ℤ) - den.log2 - 1) * den
        ≤ 2 ^ ((num.log2 : ℤ) - den.log2 - 1) * 2 ^ (den.log2 + 1 : ℤ) := by
          gcongr
          exact (most den).le
      _ = 2 ^ (num.log2 : ℤ) := by
        rw [← zpow_add₀ two_ne_zero]
        congr 1
        ring
      _ ≤ num := least num some
  unfold ratioLog2
  simp only [reaches_iff num positive]
  split_ifs with reached
  · exact eq_log reached above
  · apply eq_log below
    rw [sub_add_cancel]
    exact not_le.mp reached

/-- The exponent of the last bit that a double near a number has. -/
def unitOf (q : ℚ) : ℤ := max minExponent (Int.log 2 q - 52)

/-- The double nearest to a number without a sign. -/
def rounded (q : ℚ) : ℚ := nearestWhole (q / 2 ^ unitOf q) * 2 ^ unitOf q

/-- A number that some double has, if it is not too great. -/
def Representable (q : ℚ) : Prop := ∃ (m : ℕ) (e : ℤ), m < 2 ^ 53 ∧ minExponent ≤ e ∧ q = m * 2 ^ e

/-- A greater number has no lesser unit, since its logarithm is not less. -/
theorem unitOf_mono {p q : ℚ} (positive : 0 < p) (ordered : p ≤ q) : unitOf p ≤ unitOf q :=
  max_le_max (le_refl _) (Int.sub_le_sub_right (Int.log_mono_right positive ordered) _)

/-- A number has at most 53 bits before the end of its unit, for its leading bit weighs at most two to the fifty-second
units. -/
theorem lt_unitOf (q : ℚ) : q < 2 ^ (unitOf q + 53) := by
  have above : q < 2 ^ (Int.log 2 q + 1) := by exact_mod_cast Int.lt_zpow_succ_log_self one_lt_two q
  have reach : Int.log 2 q + 1 ≤ unitOf q + 53 := by
    have := le_max_right minExponent (Int.log 2 q - 52)
    unfold unitOf
    omega
  exact above.trans_le (zpow_le_zpow_right₀ one_le_two reach)

/-- A number with a unit above the least one has all of its 53 bits: its unit is that of its leading bit and not the
least weight. -/
theorem unitOf_le {q : ℚ} (positive : 0 < q) (fine : minExponent < unitOf q) : 2 ^ (unitOf q + 52) ≤ q := by
  have unit : unitOf q + 52 = Int.log 2 q := by
    unfold unitOf at fine ⊢
    omega
  rw [unit]
  exact_mod_cast Int.zpow_log_le_self one_lt_two positive

/-- A number that fits into 53 bits at an exponent has no greater unit, for its leading bit is below the fifty-third one
from there. -/
theorem unitOf_le_of_lt {q : ℚ} (positive : 0 < q) {e : ℤ} (fine : minExponent ≤ e) (fits : q < 2 ^ (e + 53)) :
    unitOf q ≤ e := by
  have log : Int.log 2 q < e + 53 := (Int.lt_zpow_iff_log_lt one_lt_two positive).mp (by exact_mod_cast fits)
  exact max_le fine (by omega)

/-- A representable number is a whole number of its units. Its own exponent may be greater than that of the unit, and
then the mantissa is shifted. -/
theorem Representable.units {q : ℚ} (positive : 0 < q) (representable : Representable q) :
    ∃ n : ℕ, q = n * 2 ^ unitOf q := by
  obtain ⟨m, e, bits, fine, rfl⟩ := representable
  have bits' : (m : ℚ) < 2 ^ (53 : ℤ) := by exact_mod_cast bits
  have fits : (m : ℚ) * 2 ^ e < 2 ^ (e + 53) := by
    rw [zpow_add₀ two_ne_zero, mul_comm]
    exact mul_lt_mul_of_pos_left bits' (by positivity)
  have unit := unitOf_le_of_lt positive fine fits
  refine ⟨m * 2 ^ (e - unitOf ((m : ℚ) * 2 ^ e)).toNat, ?_⟩
  rw [Nat.cast_mul, Nat.cast_pow, Nat.cast_ofNat, mul_assoc, ← twoPow_units unit]

/-- No unit is less than the least weight there is. -/
theorem unitOf_fine (q : ℚ) : minExponent ≤ unitOf q := le_max_left _ _

/-- Zero is left as it is: no unit of it is counted. -/
theorem rounded_zero : rounded 0 = 0 := by
  have none : nearestWhole 0 = 0 := by exact_mod_cast nearestWhole_natCast 0
  simp [rounded, none]

/-- A representable number is left as it is, for it is a whole number of its units and a whole number is rounded to
itself. -/
theorem Representable.rounded_eq {q : ℚ} (unsigned : 0 ≤ q) (representable : Representable q) : rounded q = q := by
  rcases unsigned.eq_or_lt with rfl | positive
  · exact rounded_zero
  · obtain ⟨n, value⟩ := representable.units positive
    have whole : q / 2 ^ unitOf q = n := by
      rw [div_eq_iff (by positivity)]
      exact value
    unfold Binary64.rounded
    rw [whole, nearestWhole_natCast]
    exact value.symm

section

variable {p q : ℚ} (unsigned : 0 ≤ q)
include unsigned

/-- Rounding changes a number by at most half a unit. It changes the count of units by at most a half. -/
theorem rounded_error : |rounded q - q| ≤ 2 ^ unitOf q / 2 := by
  have error := nearestWhole_error (show 0 ≤ q / 2 ^ unitOf q by positivity)
  have unit : (0 : ℚ) < 2 ^ unitOf q := by positivity
  have scaled : rounded q - q = ((nearestWhole (q / 2 ^ unitOf q) : ℚ) - q / 2 ^ unitOf q) * 2 ^ unitOf q := by
    unfold rounded
    field_simp
  rw [scaled, abs_mul, abs_of_pos unit]
  linarith [mul_le_mul_of_nonneg_right error unit.le]

/-- The count of units has at most 53 bits, or it is the power that has one more: the number has fewer than two to the
fifty-third units, and rounding does not lead past that. -/
theorem units_le : nearestWhole (q / 2 ^ unitOf q) ≤ 2 ^ 53 := by
  have unit : (0 : ℚ) < 2 ^ unitOf q := by positivity
  have below : q / 2 ^ unitOf q ≤ (2 ^ 53 : ℕ) := by
    rw [div_le_iff₀ unit]
    apply (lt_unitOf q).le.trans
    rw [zpow_add₀ two_ne_zero, mul_comm]
    norm_num
  have reached := nearestWhole_mono (show 0 ≤ q / 2 ^ unitOf q by positivity) below
  rwa [nearestWhole_natCast] at reached

/-- What is rounded is representable. Where the count of units has become the power of 54 bits, it is half as many units
of twice the weight. -/
theorem rounded_representable : Representable (rounded q) := by
  rcases Nat.lt_or_eq_of_le (units_le unsigned) with fewer | full
  · exact ⟨_, _, fewer, unitOf_fine q, rfl⟩
  · refine ⟨2 ^ 52, unitOf q + 1, by norm_num, by have := unitOf_fine q; omega, ?_⟩
    unfold rounded
    rw [full, zpow_add₀ two_ne_zero]
    push_cast
    ring

omit unsigned in
/-- Nothing is rounded below zero, as units are counted by natural numbers. -/
theorem rounded_nonneg (q : ℚ) : 0 ≤ rounded q := by
  unfold rounded
  positivity

/-- Rounding keeps the order. With one unit the counts keep it, and where the greater number has a greater unit, a power
of two lies between both. -/
theorem rounded_mono (ordered : q ≤ p) : rounded q ≤ rounded p := by
  rcases unsigned.eq_or_lt with rfl | positive
  · rw [rounded_zero]
    exact rounded_nonneg p
  · rcases (unitOf_mono positive ordered).eq_or_lt with same | finer
    · have unit : (0 : ℚ) < 2 ^ unitOf p := by positivity
      have counts : nearestWhole (q / 2 ^ unitOf p) ≤ nearestWhole (p / 2 ^ unitOf p) := by
        apply nearestWhole_mono (by positivity)
        gcongr
      have counts' : (nearestWhole (q / 2 ^ unitOf p) : ℚ) ≤ nearestWhole (p / 2 ^ unitOf p) := by
        exact_mod_cast counts
      unfold rounded
      rw [same]
      gcongr
    · have fine : minExponent < unitOf p := lt_of_le_of_lt (unitOf_fine q) finer
      have full : ((2 ^ 52 : ℕ) : ℚ) ≤ p / 2 ^ unitOf p := by
        rw [le_div_iff₀ (by positivity)]
        apply le_trans _ (unitOf_le (positive.trans_le ordered) fine)
        rw [zpow_add₀ two_ne_zero, mul_comm]
        norm_num
      have reached := nearestWhole_mono (by positivity) full
      rw [nearestWhole_natCast] at reached
      have reached' : (2 ^ 52 : ℚ) ≤ nearestWhole (p / 2 ^ unitOf p) := by exact_mod_cast reached
      have most : (nearestWhole (q / 2 ^ unitOf q) : ℚ) ≤ 2 ^ 53 := by exact_mod_cast units_le unsigned
      calc rounded q ≤ 2 ^ 53 * 2 ^ unitOf q := mul_le_mul_of_nonneg_right most (by positivity)
        _ = 2 ^ 52 * 2 ^ (unitOf q + 1) := by
          rw [zpow_add₀ two_ne_zero]
          ring
        _ ≤ 2 ^ 52 * 2 ^ unitOf p := by
          gcongr
          · exact one_le_two
          · exact finer
        _ ≤ rounded p := mul_le_mul_of_nonneg_right reached' (by positivity)

/-- Where a double bounds a number from above, it bounds the rounded one: rounding keeps the order and leaves the double
as it is. -/
theorem rounded_le (representable : Representable p) (bounded : q ≤ p) : rounded q ≤ p := by
  have kept := rounded_mono unsigned bounded
  rwa [representable.rounded_eq (unsigned.trans bounded)] at kept

end

/-- Where a double bounds a number from below, it bounds the rounded one, for the same reason. -/
theorem le_rounded {p q : ℚ} (unsigned : 0 ≤ p) (representable : Representable p) (bounded : p ≤ q) :
    p ≤ rounded q := by
  have kept := rounded_mono unsigned bounded
  rwa [representable.rounded_eq unsigned] at kept

/-- A whole number of at most 53 bits, in units that are not too small, is representable. The power of 54 bits is so
with units of twice the weight. -/
theorem representable_scaled {n : ℕ} (bits : n ≤ 2 ^ 53) {e : ℤ} (fine : minExponent ≤ e) :
    Representable (n * 2 ^ e) := by
  rcases Nat.lt_or_eq_of_le bits with fewer | full
  · exact ⟨n, e, fewer, fine, rfl⟩
  · refine ⟨2 ^ 52, e + 1, by norm_num, by omega, ?_⟩
    rw [full, zpow_add₀ two_ne_zero]
    push_cast
    ring

/-- Whole numbers up to the limit of exact counts are representable, in units of one. -/
theorem representable_natCast {n : ℕ} (small : n ≤ exactLimit) : Representable n := by
  have whole := representable_scaled small (show minExponent ≤ 0 by decide)
  rwa [zpow_zero, mul_one] at whole

/-- To take a whole number from a representable one needs no more bits than that has, if it is not past 53 bits. In
units of one both are whole, and in lesser units the mantissa only becomes less. -/
theorem Representable.sub_whole {q : ℚ} (representable : Representable q) {n : ℕ} (covered : (n : ℚ) ≤ q)
    (small : q ≤ (exactLimit : ℕ)) : Representable (q - n) := by
  obtain ⟨m, e, bits, fine, rfl⟩ := representable
  rcases Int.le_total 0 e with whole | part
  · obtain ⟨k, rfl⟩ := Int.eq_ofNat_of_zero_le whole
    have value : (m : ℚ) * 2 ^ (k : ℤ) = (m * 2 ^ k : ℕ) := by
      rw [zpow_natCast]
      push_cast
      rfl
    rw [value] at covered small ⊢
    have covered' : n ≤ m * 2 ^ k := by exact_mod_cast covered
    have small' : m * 2 ^ k ≤ exactLimit := by exact_mod_cast small
    rw [← Nat.cast_sub covered']
    exact representable_natCast ((Nat.sub_le _ _).trans small')
  · have unit : (0 : ℚ) < 2 ^ e := by positivity
    have counted : (n : ℚ) = (n * 2 ^ (-e).toNat : ℕ) * 2 ^ e := by
      rw [Nat.cast_mul, Nat.cast_pow, Nat.cast_ofNat, mul_assoc]
      have one := twoPow_units part
      rw [zpow_zero, zero_sub] at one
      rw [← one, mul_one]
    rw [counted] at covered ⊢
    have covered' : n * 2 ^ (-e).toNat ≤ m := by exact_mod_cast le_of_mul_le_mul_right covered unit
    rw [← sub_mul, ← Nat.cast_sub covered']
    exact ⟨_, e, (Nat.sub_le _ _).trans_lt bits, fine, rfl⟩

/-- A number that is zero or has all of its 53 bits. -/
def Normal (q : ℚ) : Prop := q = 0 ∨ 2 ^ (-1022 : ℤ) ≤ q

/-- What one rounding can change of a number that is not too small, as a part of it. -/
def oneRounding : ℚ := 2⁻¹ ^ 53

/-- Of a number that is not too small rounding changes at most one part in `2 ^ 53`. Half a unit is that part of the
leading bit, and the number is not less than its leading bit. -/
theorem Normal.close {q : ℚ} (normal : Normal q) :
    q * (1 - oneRounding) ≤ rounded q ∧ rounded q ≤ q * (1 + oneRounding) := by
  rcases normal with rfl | normal
  · simp [rounded_zero]
  · have positive : 0 < q := lt_of_lt_of_le (by positivity) normal
    have error := abs_le.mp (rounded_error positive.le)
    have log : -1022 ≤ Int.log 2 q :=
      (Int.zpow_le_iff_le_log one_lt_two positive).mp (by exact_mod_cast normal)
    have unit : (2 : ℚ) ^ unitOf q ≤ q * 2⁻¹ ^ 52 := by
      have is : unitOf q = Int.log 2 q - 52 := by
        unfold unitOf minExponent
        omega
      have bits : (2 : ℚ) ^ Int.log 2 q ≤ q := by exact_mod_cast Int.zpow_log_le_self one_lt_two positive
      rw [is, zpow_sub₀ two_ne_zero, div_eq_mul_inv]
      calc (2 : ℚ) ^ Int.log 2 q * (2 ^ (52 : ℤ))⁻¹ ≤ q * (2 ^ (52 : ℤ))⁻¹ := by gcongr
        _ = q * 2⁻¹ ^ 52 := by norm_num
    have half : q * (2⁻¹ ^ 52 : ℚ) / 2 = q * oneRounding := by
      unfold oneRounding
      ring
    constructor <;> linarith

section

variable {p q : ℚ} (positive : 0 < p) (representable : Representable p)
include positive representable

/-- Between a representable number and the next one lies at least one unit. Both are whole numbers of the unit of the
lesser one. -/
theorem Representable.next (representable' : Representable q) (less : p < q) : p + 2 ^ unitOf p ≤ q := by
  obtain ⟨m, value⟩ := representable.units positive
  obtain ⟨n, value'⟩ := representable'.units (positive.trans less)
  have finer := unitOf_mono positive less.le
  have unit : (0 : ℚ) < 2 ^ unitOf p := by positivity
  have counted : q = (n * 2 ^ (unitOf q - unitOf p).toNat : ℕ) * 2 ^ unitOf p := by
    rw [Nat.cast_mul, Nat.cast_pow, Nat.cast_ofNat, mul_assoc, ← twoPow_units finer]
    exact value'
  have fewer : (m : ℚ) < (n * 2 ^ (unitOf q - unitOf p).toNat : ℕ) := by
    apply lt_of_mul_lt_mul_right _ unit.le
    rw [← value, ← counted]
    exact less
  have fewer' : (m : ℚ) + 1 ≤ (n * 2 ^ (unitOf q - unitOf p).toNat : ℕ) := by
    exact_mod_cast Nat.succ_le_of_lt (by exact_mod_cast fewer)
  calc p + 2 ^ unitOf p = (m + 1) * 2 ^ unitOf p := by
        rw [add_mul, one_mul, ← value]
    _ ≤ q := by
        rw [counted]
        exact mul_le_mul_of_nonneg_right fewer' unit.le

/-- The number one unit above a representable one is representable, and no greater number has fewer bits. The count of
units becomes one more, which is at most the power of 54 bits. -/
theorem Representable.succ : Representable (p + 2 ^ unitOf p) ∧ p + 2 ^ unitOf p ≤ 2 ^ (unitOf p + 53) := by
  obtain ⟨m, value⟩ := representable.units positive
  have unit : (0 : ℚ) < 2 ^ unitOf p := by positivity
  have bits : m < 2 ^ 53 := by
    have below := lt_unitOf p
    rw [zpow_add₀ two_ne_zero, mul_comm] at below
    have below' : (m : ℚ) < 2 ^ (53 : ℤ) := by
      apply lt_of_mul_lt_mul_right _ unit.le
      rwa [← value]
    exact_mod_cast below'
  have next : p + 2 ^ unitOf p = (m + 1 : ℕ) * 2 ^ unitOf p := by
    rw [Nat.cast_add, Nat.cast_one, add_mul, one_mul, ← value]
  rw [next]
  constructor
  · exact representable_scaled bits (unitOf_fine p)
  · rw [zpow_add₀ two_ne_zero, mul_comm]
    apply mul_le_mul_of_nonneg_left _ unit.le
    exact_mod_cast bits

/-- Up to the next representable number the unit stays the same: it does not become less, and it becomes greater at a
power of two at the earliest. -/
theorem Representable.same_unit (above : p ≤ q) (short : q < p + 2 ^ unitOf p) : unitOf q = unitOf p := by
  apply le_antisymm
  · exact unitOf_le_of_lt (positive.trans_le above) (unitOf_fine p) (short.trans_le (representable.succ positive).2)
  · exact unitOf_mono positive above

/-- What is rounded down to a representable number is at most half a unit above it, and the unit is that number's own,
since the next representable one is not reached. -/
theorem Representable.above (down : rounded q ≤ p) : q ≤ p + 2 ^ unitOf p / 2 := by
  have unit : (0 : ℚ) < 2 ^ unitOf p := by positivity
  rcases le_or_gt q p with below | above
  · linarith
  · have short : q < p + 2 ^ unitOf p := by
      by_contra reached
      have kept := le_rounded (by positivity) (representable.succ positive).1 (not_lt.mp reached)
      linarith
    have error := abs_le.mp (rounded_error (positive.trans above).le)
    rw [representable.same_unit positive above.le short] at error
    linarith

/-- What is less than half a unit above a representable number is rounded down to it. It moves by less than the way to
the next one. -/
theorem Representable.absorbs (above : p ≤ q) (near : q < p + 2 ^ unitOf p / 2) : rounded q ≤ p := by
  have unit : (0 : ℚ) < 2 ^ unitOf p := by positivity
  have unsigned := (positive.trans_le above).le
  have error := abs_le.mp (rounded_error unsigned)
  rw [representable.same_unit positive above (by linarith)] at error
  by_contra up
  have next := representable.next positive (rounded_representable unsigned) (not_le.mp up)
  linarith

end

end Binary64

end Turnstile
