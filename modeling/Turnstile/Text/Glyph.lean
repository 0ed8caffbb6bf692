/-!
Octets read as UTF-8.

A run of octets falls into characters and stray pieces. A stray piece is the longest start of a character
that the octets after it fail to complete, or a single octet that starts no character.
-/

namespace Turnstile.Text

/-- A character, or octets that are none. -/
inductive Glyph where
  | char (c : Char)
  | stray (octets : List UInt8)
  deriving DecidableEq, Repr

/-- How many octets the glyph takes. -/
def Glyph.width : Glyph → Nat
  | .char c => c.utf8Size
  | .stray octets => octets.length

namespace Glyph

/-- How many octets follow a first octet, and the range of the octet next to it. -/
def lead (first : UInt8) : Option (Nat × UInt8 × UInt8) :=
  if 0xc2 ≤ first ∧ first ≤ 0xdf then some (1, 0x80, 0xbf)
  else if first = 0xe0 then some (2, 0xa0, 0xbf)
  else if first = 0xed then some (2, 0x80, 0x9f)
  else if 0xe1 ≤ first ∧ first ≤ 0xef then some (2, 0x80, 0xbf)
  else if first = 0xf0 then some (3, 0x90, 0xbf)
  else if 0xf1 ≤ first ∧ first ≤ 0xf3 then some (3, 0x80, 0xbf)
  else if first = 0xf4 then some (3, 0x80, 0x8f)
  else none

/-- The payload bits of a first octet with that many followers. -/
def leadBits (first : UInt8) : Nat → Nat
  | 1 => first.toNat % 32
  | 2 => first.toNat % 16
  | _ => first.toNat % 8

/-- Takes the owed followers, the first of them within `low` and `high`. -/
def follow (taken : List UInt8) (bits : Nat) :
    Nat → UInt8 → UInt8 → List UInt8 → Glyph × List UInt8
  | 0, _, _, rest => (.char (Char.ofNat bits), rest)
  | _ + 1, _, _, [] => (.stray taken.reverse, [])
  | owed + 1, low, high, b :: rest =>
    if low ≤ b ∧ b ≤ high then follow (b :: taken) (bits * 64 + b.toNat % 64) owed 0x80 0xbf rest
    else (.stray taken.reverse, b :: rest)

/-- The first glyph of a run and the octets after it. -/
def first (b : UInt8) (rest : List UInt8) : Glyph × List UInt8 :=
  if b < 0x80 then (.char (Char.ofNat b.toNat), rest)
  else match lead b with
    | none => (.stray [b], rest)
    | some (owed, low, high) => follow [b] (leadBits b owed) owed low high rest

def ofOctetsFrom (done : List Glyph) : Nat → List UInt8 → List Glyph
  | 0, _ => done.reverse
  | _ + 1, [] => done.reverse
  | fuel + 1, b :: rest =>
    let (glyph, rest) := first b rest
    ofOctetsFrom (glyph :: done) fuel rest

/-- The glyphs of a run of octets. -/
def ofOctets (octets : List UInt8) : List Glyph := ofOctetsFrom [] octets.length octets

/-- The glyphs of a text: its characters. -/
def ofText (s : String) : List Glyph := s.toList.map .char

def isChar : Glyph → Bool
  | .char _ => true
  | .stray _ => false

/-- The character, or the replacement character for a stray piece. -/
def shown : Glyph → Char
  | .char c => c
  | .stray _ => Char.ofNat 0xfffd

end Glyph

/-- Octets as text, each stray piece shown as one replacement character. -/
def lossy (octets : List UInt8) : String := String.ofList ((Glyph.ofOctets octets).map Glyph.shown)

/-- Octets as text, if there is no stray piece. -/
def ofOctets? (octets : List UInt8) : Option String :=
  let glyphs := Glyph.ofOctets octets
  if glyphs.all Glyph.isChar then some (String.ofList (glyphs.map Glyph.shown)) else none

end Turnstile.Text
