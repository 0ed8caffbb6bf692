import Turnstile.Whole

/-!
Doubles as exact integers. A finite double is a signed whole mantissa times a power of two, so every
operation is: compute the exact value, then round once to the nearest double, a tie going to the even
mantissa.

Nothing here is machine arithmetic. `nearest` is the only place where a value is rounded, and the
comparisons are comparisons of the exact values.
-/

namespace Turnstile

/-- The natural nearest to `num / den`; a tie goes to the even neighbour. -/
def roundDiv (num den : Nat) : Nat :=
  let quotient := num / den
  let twice := 2 * (num % den)
  if twice < den then quotient
  else if den < twice then quotient + 1
  else quotient + quotient % 2

/-- The greatest `e` with `2 ^ e ≤ num / den`, for positive `num` and `den`. -/
def ratioLog2 (num den : Nat) : Int :=
  let estimate : Int := (num.log2 : Int) - (den.log2 : Int)
  let reached :=
    if 0 ≤ estimate then den * twoTo estimate.toNat ≤ num
    else den ≤ num * twoTo (-estimate).toNat
  if reached then estimate else estimate - 1

/-- A double. A finite one is `± mantissa · 2 ^ exponent` in its one canonical form: the exponent is
    least possible, or the mantissa has all of its 53 bits. -/
inductive Binary64 where
  | nan (negative : Bool)
  | infinity (negative : Bool)
  | finite (negative : Bool) (mantissa : Nat) (exponent : Int)
  deriving DecidableEq, Repr, Inhabited

namespace Binary64

/-- The least exponent of a finite double. -/
def minExponent : Int := -1074

/-- The greatest exponent of a finite double. -/
def maxExponent : Int := 971

/-- The least mantissa with all of its 53 bits. -/
def leastFull : Nat := twoTo 52

def zero (negative : Bool) : Binary64 := .finite negative 0 minExponent

/-- The double nearest to `± num / den`; a magnitude past the greatest double is infinite. -/
def nearest (negative : Bool) (num den : Nat) : Binary64 :=
  if num = 0 then zero negative
  else
    let exponent := max minExponent (ratioLog2 num den - 52)
    let mantissa :=
      if 0 ≤ exponent then roundDiv num (den * twoTo exponent.toNat)
      else roundDiv (num * twoTo (-exponent).toNat) den
    let (mantissa, exponent) :=
      if mantissa = 2 * leastFull then (leastFull, exponent + 1) else (mantissa, exponent)
    if maxExponent < exponent then .infinity negative else .finite negative mantissa exponent

/-- The double nearest to `± mantissa · 2 ^ exponent`. -/
def nearestScaled (negative : Bool) (mantissa : Nat) (exponent : Int) : Binary64 :=
  if 0 ≤ exponent then nearest negative (mantissa * twoTo exponent.toNat) 1
  else nearest negative mantissa (twoTo (-exponent).toNat)

/-- The double nearest to a whole number. -/
def ofNat (n : Nat) : Binary64 := nearest false n 1

instance (n : Nat) : OfNat Binary64 n := ⟨ofNat n⟩

def isNaN : Binary64 → Bool
  | .nan _ => true
  | _ => false

def isInfinite : Binary64 → Bool
  | .infinity _ => true
  | _ => false

/-- The same magnitude with the other sign. -/
def neg : Binary64 → Binary64
  | .nan s => .nan !s
  | .infinity s => .infinity !s
  | .finite s m e => .finite (!s) m e

/-- The exact value of a finite double in units of `2 ^ unit`, for a `unit` not above its exponent. -/
def inUnits (negative : Bool) (mantissa : Nat) (exponent unit : Int) : Int :=
  let magnitude : Int := (mantissa * twoTo (exponent - unit).toNat : Nat)
  if negative then -magnitude else magnitude

/-- The sum, rounded once. Opposite zeros add up to the positive zero, and so do opposite numbers. -/
def add : Binary64 → Binary64 → Binary64
  | .nan s, _ => .nan s
  | _, .nan s => .nan s
  | .infinity s, .infinity t => if s = t then .infinity s else .nan true
  | .infinity s, .finite .. => .infinity s
  | .finite .., .infinity t => .infinity t
  | .finite s m e, .finite t n f =>
    let unit := min e f
    let sum := inUnits s m e unit + inUnits t n f unit
    if sum = 0 then zero (s && t) else nearestScaled (sum < 0) sum.natAbs unit

/-- The difference, rounded once. -/
def sub (x y : Binary64) : Binary64 :=
  match y with
  | .nan s => add x (.nan s)
  | y => add x (neg y)

/-- The product, rounded once. Zero times infinity is no number. -/
def mul : Binary64 → Binary64 → Binary64
  | .nan s, _ => .nan s
  | _, .nan s => .nan s
  | .infinity s, .infinity t => .infinity (s != t)
  | .infinity s, .finite t n _ => if n = 0 then .nan true else .infinity (s != t)
  | .finite s m _, .infinity t => if m = 0 then .nan true else .infinity (s != t)
  | .finite s m e, .finite t n f => nearestScaled (s != t) (m * n) (e + f)

/-- The quotient, rounded once. A number over zero is infinite, and zero over zero is no number. -/
def div : Binary64 → Binary64 → Binary64
  | .nan s, _ => .nan s
  | _, .nan s => .nan s
  | .infinity _, .infinity _ => .nan true
  | .infinity s, .finite t .. => .infinity (s != t)
  | .finite s .., .infinity t => zero (s != t)
  | .finite s m e, .finite t n f =>
    if n = 0 then (if m = 0 then .nan true else .infinity (s != t))
    else if f ≤ e then nearest (s != t) (m * twoTo (e - f).toNat) n
    else nearest (s != t) m (n * twoTo (f - e).toNat)

/-- The order of the exact values; nothing is less than a NaN, nor a NaN less than anything. -/
def lt : Binary64 → Binary64 → Bool
  | .nan _, _ => false
  | _, .nan _ => false
  | .infinity s, .infinity t => s && !t
  | .infinity s, .finite .. => s
  | .finite .., .infinity t => !t
  | .finite s m e, .finite t n f =>
    let unit := min e f
    inUnits s m e unit < inUnits t n f unit

/-- At most, by the exact values; the two zeros are equal, and a NaN is beside the order. -/
def le : Binary64 → Binary64 → Bool
  | .nan _, _ => false
  | _, .nan _ => false
  | .infinity s, .infinity t => s || !t
  | .infinity s, .finite .. => s
  | .finite .., .infinity t => !t
  | .finite s m e, .finite t n f =>
    let unit := min e f
    inUnits s m e unit ≤ inUnits t n f unit

/-- The lesser of the two; a NaN gives way to the other. -/
def least (x y : Binary64) : Binary64 :=
  if x.isNaN then y
  else if y.isNaN then x
  else if y.lt x then y else x

instance : Add Binary64 := ⟨add⟩
instance : Sub Binary64 := ⟨sub⟩
instance : Mul Binary64 := ⟨mul⟩
instance : Div Binary64 := ⟨div⟩
instance : Neg Binary64 := ⟨neg⟩

/-- The exact magnitude of `mantissa · 2 ^ exponent` as a quotient of naturals. -/
def magnitude (mantissa : Nat) (exponent : Int) : Nat × Nat :=
  if 0 ≤ exponent then (mantissa * twoTo exponent.toNat, 1) else (mantissa, twoTo (-exponent).toNat)

/-- The greatest whole number not above the value, held within `0` and `limit`; a NaN gives `0`. -/
def floorWithin (limit : Nat) : Binary64 → Nat
  | .nan _ => 0
  | .infinity s => if s then 0 else limit
  | .finite true .. => 0
  | .finite false m e =>
    let (num, den) := magnitude m e
    min limit (num / den)

/-- The least whole number not below the value, held within `0` and `limit`; a NaN gives `0`. -/
def ceilWithin (limit : Nat) : Binary64 → Nat
  | .nan _ => 0
  | .infinity s => if s then 0 else limit
  | .finite true .. => 0
  | .finite false m e =>
    let (num, den) := magnitude m e
    min limit ((num + den - 1) / den)

/-- The sign in the interchange word. -/
def signBit (negative : Bool) : Nat := if negative then signedLimit else 0

/-- The interchange word: sign, eleven bits of biased exponent, fifty-two of fraction. -/
def toBits : Binary64 → UInt64
  | .nan s => .ofNat (signBit s + 0x7ff8000000000000)
  | .infinity s => .ofNat (signBit s + 0x7ff0000000000000)
  | .finite s m e =>
    let field := if m < leastFull then 0 else (e + 1075).toNat
    .ofNat (signBit s + field * leastFull + m % leastFull)

end Binary64

end Turnstile
