/-!
Base64 with padding, in the standard alphabet.

Decoding accepts the canonical form only: the last group is padded, and the bits that padding leaves over are
zero. What is wrong and where is reported for the first symbol at fault.
-/

namespace Turnstile.Base64

/-- The symbol of a value below 64. -/
def symbol (n : Nat) : Char :=
  if n < 26 then Char.ofNat ('A'.toNat + n)
  else if n < 52 then Char.ofNat ('a'.toNat + (n - 26))
  else if n < 62 then Char.ofNat ('0'.toNat + (n - 52))
  else if n = 62 then '+'
  else '/'

/-- The value of a symbol. -/
def value? (b : UInt8) : Option Nat :=
  let n := b.toNat
  if 65 ≤ n ∧ n ≤ 90 then some (n - 65)
  else if 97 ≤ n ∧ n ≤ 122 then some (n - 97 + 26)
  else if 48 ≤ n ∧ n ≤ 57 then some (n - 48 + 52)
  else if n = 43 then some 62
  else if n = 47 then some 63
  else none

/-- The padding symbol's octet. -/
def pad : UInt8 := 61

def encodeOnto (done : List Char) : List UInt8 → List Char
  | [] => done
  | [a] => '=' :: '=' :: symbol (a.toNat % 4 * 16) :: symbol (a.toNat / 4) :: done
  | [a, b] =>
    '=' :: symbol (b.toNat % 16 * 4) :: symbol (a.toNat % 4 * 16 + b.toNat / 16) ::
      symbol (a.toNat / 4) :: done
  | a :: b :: c :: rest =>
    encodeOnto (symbol (c.toNat % 64) :: symbol (b.toNat % 16 * 4 + c.toNat / 64) ::
      symbol (a.toNat % 4 * 16 + b.toNat / 16) :: symbol (a.toNat / 4) :: done) rest

/-- Three octets in four symbols; a short last group is padded. -/
def encodeChars (octets : List UInt8) : List Char := (encodeOnto [] octets).reverse

/-- The Base64 text of octets. -/
def encode (octets : List UInt8) : String := String.ofList (encodeChars octets)

/-- Why a text is not Base64. -/
inductive Fault where
  /-- An octet that is no symbol, or padding out of place. -/
  | symbol (octet : UInt8) (offset : Nat)
  /-- The last symbol has bits that no octet takes. -/
  | lastSymbol (octet : UInt8) (offset : Nat)
  /-- A length that no octets encode to. -/
  | length (n : Nat)
  /-- Padding that is missing or wrong. -/
  | padding
  deriving DecidableEq, Repr

def Fault.message : Fault → String
  | .symbol b offset => s!"Invalid symbol {b.toNat}, offset {offset}."
  | .lastSymbol b offset => s!"Invalid last symbol {b.toNat}, offset {offset}."
  | .length n => s!"Invalid input length: {n}"
  | .padding => "Invalid padding"

/-- The last group: at most four octets, at `offset`. It needs two symbols at least, the padding that fills
    it up and nothing in the bits left over. -/
def decodeLast (offset : Nat) (group : List UInt8) : Except Fault (List UInt8) :=
  let symbols := group.takeWhile (· != pad)
  let padding := group.dropWhile (· != pad)
  match symbols.zipIdx.find? (fun p => (value? p.1).isNone) with
  | some (b, i) => .error (.symbol b (offset + i))
  | none =>
    match padding.zipIdx.find? (fun p => p.1 != pad) with
    | some _ => .error (.symbol pad (offset + symbols.length))
    | none =>
      match symbols.filterMap value?, padding.length with
      | [], 0 => .ok []
      | [], _ => .error (.symbol pad offset)
      | [_], 0 => .error (.length (offset + 1))
      | [_], _ => .error (.symbol pad (offset + 1))
      | [a, b], n =>
        if n ≠ 2 then .error .padding
        else if b % 16 ≠ 0 then .error (.lastSymbol (symbols.getLastD 0) (offset + 1))
        else .ok [.ofNat (a * 4 + b / 16)]
      | [a, b, c], n =>
        if n ≠ 1 then .error .padding
        else if c % 4 ≠ 0 then .error (.lastSymbol (symbols.getLastD 0) (offset + 2))
        else .ok [.ofNat (a * 4 + b / 16), .ofNat (b % 16 * 16 + c / 4)]
      | a :: b :: c :: d :: _, _ =>
        .ok [.ofNat (a * 4 + b / 16), .ofNat (b % 16 * 16 + c / 4), .ofNat (c % 4 * 64 + d)]

/-- All groups but the last are whole; `done` holds the octets so far, last first. -/
def decodeFrom (offset : Nat) (done : List UInt8) : List UInt8 → Except Fault (List UInt8)
  | a :: b :: c :: d :: e :: rest =>
    match value? a, value? b, value? c, value? d with
    | some va, some vb, some vc, some vd =>
      decodeFrom (offset + 4)
        (.ofNat (vc % 4 * 64 + vd) :: .ofNat (vb % 16 * 16 + vc / 4) :: .ofNat (va * 4 + vb / 16) :: done)
        (e :: rest)
    | none, _, _, _ => .error (.symbol a offset)
    | _, none, _, _ => .error (.symbol b (offset + 1))
    | _, _, none, _ => .error (.symbol c (offset + 2))
    | _, _, _, none => .error (.symbol d (offset + 3))
  | group =>
    match decodeLast offset group with
    | .error e => .error e
    | .ok last => .ok (done.reverse ++ last)

/-- An octet beyond the last whole group that is neither a symbol nor padding; it is reported before
    anything else. -/
def danglingFault? (octets : List UInt8) : Option Fault :=
  if octets.length % 4 = 1 then
    match octets.getLast? with
    | some b => if b ≠ pad ∧ (value? b).isNone then some (.symbol b (octets.length - 1)) else none
    | none => none
  else none

/-- The octets that `octets` encode. -/
def decode (octets : List UInt8) : Except Fault (List UInt8) :=
  match danglingFault? octets with
  | some fault => .error fault
  | none => decodeFrom 0 [] octets

end Turnstile.Base64
