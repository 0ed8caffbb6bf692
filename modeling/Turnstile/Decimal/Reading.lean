import Turnstile.Binary64
import Turnstile.Whole

/-!
Decimal text read as a double, correctly rounded.

A number is digits with an optional point and an optional exponent; a digit must stand on one side of the
point. The words `inf`, `infinity` and `nan` are read in any case, and everything may carry a sign.
-/

namespace Turnstile.Decimal

/-- Why a text is no double. -/
inductive ReadError where
  | empty
  | malformed
  deriving DecidableEq, Repr

def ReadError.message : ReadError → String
  | .empty => "cannot parse float from empty string"
  | .malformed => "invalid float literal"

/-- The double nearest to `± digits · 10 ^ exponent`. An exponent far outside the range of doubles decides
    the answer without the power being computed. -/
def nearest (negative : Bool) (digits : Nat) (exponent : Int) : Binary64 :=
  if digits = 0 then .zero negative
  else
    let length : Int := (toString digits).length
    if 400 < exponent + length then .infinity negative
    else if exponent + length < -400 then .zero negative
    else if 0 ≤ exponent then .nearest negative (digits * tenTo exponent.toNat) 1
    else .nearest negative digits (tenTo (-exponent).toNat)

/-- The exponent part: nothing, or a letter, an optional sign and at least one digit. -/
def readExponent : List Char → Option Int
  | [] => some 0
  | c :: rest =>
    if c = 'e' ∨ c = 'E' then
      let (negative, digits) := takeSign rest
      if digits.isEmpty || !digits.all Char.isDigit then none
      else
        let size : Int := digitsValue digits
        some (if negative then -size else size)
    else none

/-- Reads a double. -/
def read (text : String) : Except ReadError Binary64 :=
  if text.isEmpty then .error .empty
  else
    let (negative, body) := takeSign text.toList
    let word := body.map Char.toLower
    if word = "inf".toList ∨ word = "infinity".toList then .ok (.infinity negative)
    else if word = "nan".toList then .ok (.nan negative)
    else
      let whole := body.takeWhile Char.isDigit
      let afterWhole := body.dropWhile Char.isDigit
      let (fraction, rest) := match afterWhole with
        | '.' :: tail => (tail.takeWhile Char.isDigit, tail.dropWhile Char.isDigit)
        | other => ([], other)
      if whole.isEmpty && fraction.isEmpty then .error .malformed
      else
        match readExponent rest with
        | none => .error .malformed
        | some exponent =>
          .ok (nearest negative (digitsValue (whole ++ fraction)) (exponent - fraction.length))

end Turnstile.Decimal
