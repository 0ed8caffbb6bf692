/-!
Whole numbers: powers of two and of ten, the bounds of what fits in a word, and runs of decimal digits.

A limit is one past the greatest count that fits.
-/

namespace Turnstile

/-- Two to the given power. -/
def twoTo (n : Nat) : Nat := Nat.pow 2 n

/-- Ten to the given power. -/
def tenTo (n : Nat) : Nat := Nat.pow 10 n

/-- The limit of counts of 16 bits. -/
def word16Limit : Nat := 65536

/-- The limit of counts of 32 bits. -/
def word32Limit : Nat := 4294967296

/-- The limit of counts of 64 bits. -/
def word64Limit : Nat := 18446744073709551616

/-- The limit of what 64 bits hold beside a sign. -/
def signedLimit : Nat := 9223372036854775808

/-- Whether a whole number fits in 64 bits with a sign. -/
def fitsSigned (n : Int) : Bool := decide (-(signedLimit : Int) ≤ n ∧ n < signedLimit)

end Turnstile

namespace Turnstile.Decimal

/-- The value of a run of decimal digits. -/
def digitsValue (digits : List Char) : Nat :=
  digits.foldl (fun n c => 10 * n + (c.toNat - '0'.toNat)) 0

/-- A sign in front of the rest; no sign is a plus. -/
def takeSign : List Char → Bool × List Char
  | '-' :: rest => (true, rest)
  | '+' :: rest => (false, rest)
  | rest => (false, rest)

/-- A whole number of 64 bits with a sign: digits, and nothing else but a sign in front of them. -/
def readWhole? (cs : List Char) : Option Int :=
  let (negative, digits) := takeSign cs
  if digits.isEmpty || !digits.all Char.isDigit then none
  else
    let size : Int := digitsValue digits
    let n := if negative then -size else size
    if fitsSigned n then some n else none

end Turnstile.Decimal
