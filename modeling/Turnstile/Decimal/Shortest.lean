import Turnstile.Binary64

/-!
The shortest decimal that reads back as a given double.

A double stands for every real that rounds to it, an interval around its exact value. Among the grids of
multiples of a power of ten, `shortest` takes the coarsest that meets the interval, and on it the point
nearest to the exact value. A coarser grid means fewer digits, so no shorter decimal reads back. Which of two
points counts as the nearer one when both are equally near is left to the form of the text.
-/

namespace Turnstile.Decimal

/-- `digits · 10 ^ exponent`. -/
structure Digits where
  digits : Nat
  exponent : Int
  deriving DecidableEq, Repr

/-- Where a value goes that lies halfway between two points of a grid. -/
inductive Halfway where
  /-- To the even one. -/
  | even
  /-- To the greater one. -/
  | up
  deriving DecidableEq, Repr

/-- The reals that round to a positive double, as multiples of a common unit: `low` to `high` around
    `value`, ends included when `closed`. -/
structure Interval where
  low : Nat
  value : Nat
  high : Nat
  unit : Nat
  closed : Bool

/-- Half a step reaches to each side, except a quarter below a power of two, where the steps below are
    half as wide. -/
def Interval.around (mantissa : Nat) (exponent : Int) : Interval :=
  let below := if mantissa = Binary64.leastFull ∧ Binary64.minExponent < exponent then 1 else 2
  let scale := twoTo (exponent - 2).toNat
  { low := (4 * mantissa - below) * scale
    value := 4 * mantissa * scale
    high := (4 * mantissa + 2) * scale
    unit := twoTo (2 - exponent).toNat
    closed := mantissa % 2 = 0 }

def Interval.holds (i : Interval) (point : Nat) : Bool :=
  if i.closed then i.low ≤ point && point ≤ i.high else i.low < point && point < i.high

/-- The point of the grid `10 ^ exponent` in the interval that is nearest to its value, if one is in it. -/
def Interval.onGrid? (i : Interval) (halfway : Halfway) (exponent : Int) : Option Nat :=
  let widen := tenTo (-exponent).toNat
  let step := tenTo exponent.toNat * i.unit
  let scaled : Interval :=
    { i with low := i.low * widen, value := i.value * widen, high := i.high * widen }
  let below := scaled.value / step
  let above := below + 1
  match scaled.holds (below * step), scaled.holds (above * step) with
  | false, false => none
  | true, false => some below
  | false, true => some above
  | true, true =>
    let down := scaled.value - below * step
    let up := above * step - scaled.value
    if down < up then some below
    else if up < down then some above
    else if halfway = .even ∧ below % 2 = 0 then some below
    else some above

/-- Searches the grids from coarse to fine. -/
def Interval.coarsest (i : Interval) (halfway : Halfway) : Nat → Int → Option Digits
  | 0, _ => none
  | fuel + 1, exponent =>
    match i.onGrid? halfway exponent with
    | some digits => some ⟨digits, exponent⟩
    | none => i.coarsest halfway fuel (exponent - 1)

/-- The shortest decimal of a positive double `mantissa · 2 ^ exponent`. The grids run from `10 ^ 309`,
    above every double, to `10 ^ -324`, within a step of the least one. -/
def shortest (halfway : Halfway) (mantissa : Nat) (exponent : Int) : Digits :=
  ((Interval.around mantissa exponent).coarsest halfway 634 309).getD ⟨0, 0⟩

end Turnstile.Decimal
