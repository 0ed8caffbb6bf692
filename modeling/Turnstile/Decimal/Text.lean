import Turnstile.Decimal.Shortest

/-!
Doubles as text. Both forms write the shortest digits that read back.

The plain form never uses an exponent and writes whole numbers without a point; a value halfway between two
shortest decimals is written as the greater one. The compact form always shows a point or an exponent, so that
a reader can tell a double from a whole number; a value halfway is written as the even one.
-/

namespace Turnstile.Decimal

private def zeros (n : Nat) : String := String.ofList (List.replicate n '0')

/-- The digits with the point in place, no exponent. -/
def Digits.positional (d : Digits) : String :=
  let digits := toString d.digits
  if 0 ≤ d.exponent then digits ++ zeros d.exponent.toNat
  else
    let fraction := (-d.exponent).toNat
    let digits := if digits.length ≤ fraction then zeros (fraction + 1 - digits.length) ++ digits else digits
    let whole := digits.toList.take (digits.length - fraction)
    let rest := digits.toList.drop (digits.length - fraction)
    String.ofList whole ++ "." ++ String.ofList rest

private def signed (negative : Bool) (text : String) : String :=
  if negative then "-" ++ text else text

/-- Plain text: `0.7`, `1`, `-0`, `10000000000000000000000`, `NaN`, `inf`. -/
def plain : Binary64 → String
  | .nan _ => "NaN"
  | .infinity s => signed s "inf"
  | .finite s 0 _ => signed s "0"
  | .finite s m e => signed s (shortest .up m e).positional

/-- The exponent after its letter: a sign and at least two digits. -/
private def exponentText (e : Int) : String :=
  let digits := toString e.natAbs
  (if e < 0 then "-" else "+") ++ (if digits.length < 2 then "0" ++ digits else digits)

/-- One digit, a point if more follow, and the power of ten. -/
def Digits.scientific (d : Digits) : String :=
  let digits := (toString d.digits).toList
  let power := d.exponent + digits.length - 1
  let mantissa := match digits with
    | [] => ""
    | [c] => String.ofList [c]
    | c :: rest => String.ofList (c :: '.' :: rest)
  mantissa ++ "e" ++ exponentText power

/-- Compact text: positional from `10 ^ -5` to below `10 ^ 16`, with at least one digit after the point;
    scientific outside. -/
def compact : Binary64 → String
  | .nan _ => "NaN"
  | .infinity s => signed s "inf"
  | .finite s 0 _ => signed s "0.0"
  | .finite s m e =>
    let d := shortest .even m e
    let power := d.exponent + (toString d.digits).length - 1
    if -5 ≤ power ∧ power ≤ 15 then
      signed s (if 0 ≤ d.exponent then d.positional ++ ".0" else d.positional)
    else signed s d.scientific

end Turnstile.Decimal
