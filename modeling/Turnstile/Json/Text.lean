import Turnstile.Json.Number

/-!
Strings in JSON text, behind their opening quote.

`string` gives the content. `stringSkipped` only finds the closing quote: it does not mind whether escapes
stand for characters, nor whether the octets are UTF-8.
-/

namespace Turnstile.Json

open Text (Glyph)

/-- The value of a hexadecimal digit. -/
def hexValue? (c : Char) : Option Nat :=
  if c.isDigit then some (c.toNat - '0'.toNat)
  else if 'a' ≤ c ∧ c ≤ 'f' then some (c.toNat - 'a'.toNat + 10)
  else if 'A' ≤ c ∧ c ≤ 'F' then some (c.toNat - 'A'.toNat + 10)
  else none

/-- The character of a one-letter escape. -/
def letterEscape? (c : Char) : Option Char :=
  if c = '"' then some '"'
  else if c = '\\' then some '\\'
  else if c = '/' then some '/'
  else if c = 'b' then some (Char.ofNat 8)
  else if c = 'f' then some (Char.ofNat 12)
  else if c = 'n' then some '\n'
  else if c = 'r' then some '\r'
  else if c = 't' then some '\t'
  else none

namespace Reader

/-- The place `octets` octets further, or at the end of the text if that comes first. -/
def placeAfter : Nat → Position → List Glyph → Position
  | 0, p, _ => p
  | _, p, [] => p
  | octets, p, g :: rest =>
    if g = .char '\n' then placeAfter (octets - 1) ⟨p.line + 1, 0⟩ rest
    else if octets ≤ g.width then ⟨p.line, p.column + octets⟩
    else placeAfter (octets - g.width) (p.after g) rest

/-- Four hexadecimal digits. Four octets are read before any of them is judged. -/
def hexFour : Reader Nat := do
  let c ← get
  match c.rest with
  | .char a :: .char b :: .char d :: .char e :: rest =>
    match hexValue? a, hexValue? b, hexValue? d, hexValue? e with
    | some a, some b, some d, some e =>
      advanceTo rest 4
      return ((a * 16 + b) * 16 + d) * 16 + e
    | _, _, _, _ => throw ⟨.badEscape, some (placeAfter 4 c.position c.rest)⟩
  | glyphs =>
    let octets := (glyphs.take 4).foldl (fun n g => n + g.width) 0
    let cause := if octets < 4 then .endInString else .badEscape
    throw ⟨cause, some (placeAfter 4 c.position glyphs)⟩

/-- The character just ahead, within a string. -/
def expectInString (expected : Char) (otherwise : Cause) : Reader Unit :=
  nextOr (fun c => if c = expected then some () else none) .endInString otherwise

/-- The character of a numeric escape whose letter has been read; one beyond the basic plane takes two. -/
def numericEscape : Reader Char := do
  let first ← hexFour
  if 0xdc00 ≤ first ∧ first ≤ 0xdfff then failHere .loneSurrogate
  else if first < 0xd800 ∨ 0xdbff < first then return Char.ofNat first
  else
    expectInString '\\' .halfSurrogatePair
    expectInString 'u' .halfSurrogatePair
    let second ← hexFour
    if second < 0xdc00 ∨ 0xdfff < second then failHere .loneSurrogate
    else return Char.ofNat (0x10000 + (first - 0xd800) * 0x400 + (second - 0xdc00))

/-- The character of an escape whose backslash has been read. -/
def escape : Reader Char := do
  let letter ← nextOr (fun c => if c = 'u' then some none else (letterEscape? c).map some) .endInString .badEscape
  match letter with
  | some c => return c
  | none => numericEscape

/-- Plain characters up to a quote, a backslash or a control; `done` is what came before, last first. `stray`
    is the place of the first octet that was not UTF-8. -/
def plainRun (done : List Char) (stray : Option Position) (p : Position) :
    List Glyph → List Char × Option Position × Position × List Glyph
  | .char c :: rest =>
    if c = '"' ∨ c = '\\' ∨ c.toNat < 32 then (done, stray, p, .char c :: rest)
    else plainRun (c :: done) stray (p.after (.char c)) rest
  | .stray octets :: rest =>
    plainRun done (stray.or (some ⟨p.line, p.column + 1⟩)) (p.after (.stray octets)) rest
  | [] => (done, stray, p, [])

/-- The content of a string from here on; `done` is what came before, last first. Octets that are not UTF-8
    are reported once the string has come to its end. -/
def stringFrom : Nat → List Char → Option Position → Reader String
  | 0, _, _ => failHere .endInString
  | fuel + 1, done, stray => do
    let c ← get
    let (done, stray, position, rest) := plainRun done stray c.position c.rest
    set { c with rest := rest, position := position }
    match rest with
    | [] => failHere .endInString
    | g :: _ =>
      bump
      if g = .char '"' then
        match stray with
        | none => return String.ofList done.reverse
        | some place => throw ⟨.badCodePoint, some place⟩
      else if g = .char '\\' then
        let c ← escape
        stringFrom fuel (c :: done) stray
      else failHere .controlInString

/-- The content of a string. -/
def string : Reader String := do
  stringFrom ((← get).rest.length + 1) [] none

/-- Skips the rest of a string. -/
def stringSkippedFrom : Nat → Reader Unit
  | 0 => failHere .endInString
  | fuel + 1 => do
    let c ← get
    let (_, _, position, rest) := plainRun [] none c.position c.rest
    set { c with rest := rest, position := position }
    match rest with
    | [] => failHere .endInString
    | g :: _ =>
      if g = .char '"' then bump
      else if g = .char '\\' then
        bump
        let numeric ← nextOr (fun c => if c = 'u' then some true else (letterEscape? c).map fun _ => false)
          .endInString .badEscape
        if numeric then
          let _ ← hexFour
        stringSkippedFrom fuel
      else failHere .controlInString

/-- Skips a string. -/
def stringSkipped : Reader Unit := do
  stringSkippedFrom ((← get).rest.length + 1)

end Reader

end Turnstile.Json
