import Turnstile.Json.Cursor

/-!
Numbers in JSON text.

A number without point and exponent that fits in 64 bits is a whole number. Any other is a double: the first
digits that fit in 64 bits, scaled by a power of ten with one rounding for the digits and one for the scaling.
-/

namespace Turnstile.Json

open Text (Glyph)

/-- A whole number or a double. -/
inductive Number where
  | integer (n : Int)
  | real (x : Binary64)
  deriving DecidableEq, Repr

def Number.found : Number → Found
  | .integer n => .integer n
  | .real x => .real x

def Number.value : Number → Value
  | .integer n => .integer n
  | .real x => .real x

namespace Reader

def digitValue (c : Char) : Nat := c.toNat - '0'.toNat

def digit? (c : Char) : Option Nat := if c.isDigit then some (digitValue c) else none

/-- Takes digits as long as the number they make stays below `limit`. Gives the number, how many digits were
    taken, and what is left. -/
def takeDigits (limit : Nat) (n count : Nat) : List Glyph → Nat × Nat × List Glyph
  | .char c :: rest =>
    if c.isDigit ∧ n * 10 + digitValue c < limit then
      takeDigits limit (n * 10 + digitValue c) (count + 1) rest
    else (n, count, .char c :: rest)
  | rest => (n, count, rest)

/-- Skips digits and counts them. -/
def skipDigits (count : Nat) : List Glyph → Nat × List Glyph
  | .char c :: rest => if c.isDigit then skipDigits (count + 1) rest else (count, .char c :: rest)
  | rest => (count, rest)

/-- Moves to what is left after that many one-octet characters. -/
def advanceTo (rest : List Glyph) (count : Nat) : Reader Unit :=
  modify fun c => { c with rest := rest, position := ⟨c.position.line, c.position.column + count⟩ }

/-- Reads digits onto a number below the limit of a word. -/
def digitsOnto (n : Nat) : Reader (Nat × Nat) := do
  let (n, count, rest) := takeDigits word64Limit n 0 (← get).rest
  advanceTo rest count
  return (n, count)

def digitsSkipped : Reader Nat := do
  let (count, rest) := skipDigits 0 (← get).rest
  advanceTo rest count
  return count

/-- A power of ten as a double. -/
def realTenTo (n : Nat) : Binary64 := .nearest false (tenTo n) 1

/-- The greatest power of ten that is a finite double. -/
def greatestTen : Nat := 308

/-- Divides by powers of ten until the exponent is within reach. -/
def shrink : Nat → Binary64 → Int → Binary64
  | 0, x, _ => x
  | fuel + 1, x, exponent =>
    if exponent.natAbs ≤ greatestTen then x / realTenTo exponent.natAbs
    else if x = .zero false then x
    else shrink fuel (x / realTenTo greatestTen) (exponent + greatestTen)

/-- The double for `digits · 10 ^ exponent`. -/
def scaled (negative : Bool) (digits : Nat) (exponent : Int) : Reader Binary64 := do
  let x := Binary64.ofNat digits
  let signed (x : Binary64) : Binary64 := if negative then -x else x
  if exponent < 0 then return signed (shrink 8 x exponent)
  else if exponent.natAbs ≤ greatestTen then
    let product := x * realTenTo exponent.natAbs
    if product.isInfinite then failHere .numberTooLarge else return signed product
  else if digits = 0 then return signed x
  else failHere .numberTooLarge

/-- One past the greatest exponent that is computed with. -/
def exponentLimit : Nat := twoTo 31

def clampExponent (e : Int) : Int := max (-(exponentLimit : Int)) (min e (exponentLimit - 1))

/-- Behind the exponent letter's place: sign, digits, and the number scaled by all exponents. -/
def exponentPart (negative : Bool) (digits : Nat) (before : Int) : Reader Binary64 := do
  bump
  let sign ← peekChar
  if sign = '+' ∨ sign = '-' then bump
  let first ← nextOr digit? .endInValue .badNumber
  let (size, count, rest) := takeDigits exponentLimit first 0 (← get).rest
  advanceTo rest count
  if (← peekChar).isDigit then
    bump
    if digits ≠ 0 ∧ sign ≠ '-' then failHere .numberTooLarge
    else
      let _ ← digitsSkipped
      return .zero negative
  else scaled negative digits (clampExponent (if sign = '-' then before - size else before + size))

/-- At the point: the fraction's digits; those that no longer fit are skipped. -/
def fractionPart (negative : Bool) (digits : Nat) (before : Int) : Reader Binary64 := do
  bump
  let (digits, count) ← digitsOnto digits
  let dropped ← digitsSkipped
  if count = 0 ∧ dropped = 0 then
    match (← get).peek? with
    | none => failAhead .endInValue
    | some _ => failAhead .badNumber
  else
    let exponent := before - count
    let c ← peekChar
    if c = 'e' ∨ c = 'E' then exponentPart negative digits exponent else scaled negative digits exponent

/-- After the digits before the point. `dropped` of them did not fit. -/
def numberTail (negative : Bool) (digits dropped : Nat) : Reader Number := do
  let c ← peekChar
  if c = '.' then return .real (← fractionPart negative digits dropped)
  else if c = 'e' ∨ c = 'E' then return .real (← exponentPart negative digits dropped)
  else if dropped ≠ 0 then return .real (← scaled negative digits dropped)
  else if !negative then return .integer digits
  else if digits = 0 ∨ signedLimit < digits then return .real (-(Binary64.ofNat digits))
  else return .integer (-digits)

/-- A number whose sign has been read. -/
def number (negative : Bool) : Reader Number := do
  let first ← nextOr digit? .endInValue .badNumber
  if first = 0 then
    if (← peekChar).isDigit then failAhead .badNumber else numberTail negative 0 0
  else
    let (digits, _) ← digitsOnto first
    let dropped ← digitsSkipped
    numberTail negative digits dropped

/-- Skips an exponent, minding its form only. -/
def exponentSkipped : Reader Unit := do
  bump
  let sign ← peekChar
  if sign = '+' ∨ sign = '-' then bump
  let _ ← nextOr digit? .badNumber .badNumber
  let _ ← digitsSkipped

/-- Skips a number whose sign has been read, minding its form only. -/
def numberSkipped : Reader Unit := do
  let first ← nextOr digit? .badNumber .badNumber
  if first = 0 then
    if (← peekChar).isDigit then failAhead .badNumber
  else
    let _ ← digitsSkipped
  let c ← peekChar
  if c = '.' then
    bump
    let count ← digitsSkipped
    if count = 0 then failAhead .badNumber
    else
      let e ← peekChar
      if e = 'e' ∨ e = 'E' then exponentSkipped
  else if c = 'e' ∨ c = 'E' then exponentSkipped

end Reader

end Turnstile.Json
