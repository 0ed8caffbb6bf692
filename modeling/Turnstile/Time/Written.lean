import Turnstile.Time
import Turnstile.Text.Quoted

/-!
Spans of time as people write them: `1h 30m`, `250ms`, `1.5s`.

A written span is a sequence of numbers with units, added up. A number may have a fraction, if the fraction of
its unit comes out whole in the finer unit that it is counted in. A year is 365.25 days and a month 30.44.
-/

namespace Turnstile.Span

/-- The units of time. -/
inductive Unit where
  | nanosecond | microsecond | millisecond | second | minute | hour | day | week | month | year
  deriving DecidableEq, Repr

/-- The names of a unit. -/
def Unit.ofName? (name : String) : Option Unit :=
  if ["nanos", "nsec", "ns"].contains name then some .nanosecond
  else if ["usec", "us", "µs"].contains name then some .microsecond
  else if ["millis", "msec", "ms"].contains name then some .millisecond
  else if ["seconds", "second", "secs", "sec", "s"].contains name then some .second
  else if ["minutes", "minute", "min", "mins", "m"].contains name then some .minute
  else if ["hours", "hour", "hrs", "hr", "h"].contains name then some .hour
  else if ["days", "day", "d"].contains name then some .day
  else if ["weeks", "week", "wk", "wks", "w"].contains name then some .week
  else if ["months", "month", "M"].contains name then some .month
  else if ["years", "year", "yr", "yrs", "y"].contains name then some .year
  else none

/-- A whole unit: how many it makes of the finer unit that it is counted in, and whether that is the second
    and not the nanosecond. -/
def Unit.whole : Unit → Nat × Bool
  | .nanosecond => (1, false)
  | .microsecond => (1000, false)
  | .millisecond => (1000000, false)
  | .second => (1, true)
  | .minute => (60, true)
  | .hour => (3600, true)
  | .day => (86400, true)
  | .week => (604800, true)
  | .month => (2630016, true)
  | .year => (31557600, true)

/-- The same for fractions of a unit; a nanosecond has none. -/
def Unit.fractional? : Unit → Option (Nat × Bool)
  | .nanosecond => none
  | .second => some (1000000000, false)
  | .minute => some (60000000000, false)
  | other => some other.whole

/-- Why a text is no span. -/
inductive ReadFault where
  | empty
  | invalidCharacter (offset : Nat)
  | numberExpected (offset : Nat)
  | unitNeeded (number : Nat)
  | unknownUnit (name : String)
  | outOfRange
  /-- Reading breaks off. -/
  | broke (why : Breakdown)
  deriving DecidableEq, Repr

def ReadFault.message : ReadFault → String
  | .empty => "value was empty"
  | .invalidCharacter offset => s!"invalid character at {offset}"
  | .numberExpected offset => s!"expected number at {offset}"
  | .unitNeeded n => s!"time unit needed, for example {n}sec or {n}ms"
  | .unknownUnit name =>
    "unknown time unit " ++ Text.quoted name ++
      ", supported units: ns, us/µs, ms, sec, min, hours, days, weeks, months, years (and few variations)"
  | .outOfRange =>
    "number is too large or cannot be represented without a lack of precision (values below 1ns are not supported)"
  | .broke why => why.message

/-- A number held in 64 bits. -/
def word (n : Nat) : Except ReadFault Nat := if n < word64Limit then .ok n else .error .outOfRange

/-- Seconds and nanoseconds added up so far. -/
abbrev Sum := Nat × Nat

/-- Adds an amount. More than a second of nanoseconds is carried before the sum is judged; just a second is
    carried afterwards, and that must not fail. -/
def addTo (sum : Sum) (amount : Nat) (inSeconds : Bool) : Except ReadFault Sum := do
  let nanos ← word (sum.2 + if inSeconds then 0 else amount)
  let carry := if nanos = nanosPerSecond then 0 else nanos / nanosPerSecond
  let seconds ← word (sum.1 + (if inSeconds then amount else 0) + carry)
  if nanos ≠ nanosPerSecond then return (seconds, nanos % nanosPerSecond)
  else if seconds + 1 < word64Limit then return (seconds + 1, 0)
  else throw (.broke .carryOutOfRange)

/-- Adds a number of units; `fraction` is the digits behind the point as a numerator over a power of ten. -/
def addUnits (sum : Sum) (n : Nat) (fraction : Option (Nat × Nat)) (name : String) : Except ReadFault Sum := do
  match Unit.ofName? name with
  | none => .error (if name.isEmpty then .unitNeeded n else .unknownUnit name)
  | some unit =>
    let (size, inSeconds) := unit.whole
    let sum ← addTo sum (← word (n * size)) inSeconds
    match fraction with
    | none => return sum
    | some (numerator, denominator) =>
      match unit.fractional? with
      | none => .error .outOfRange
      | some (size, inSeconds) =>
        let product ← word (numerator * size)
        if product % denominator ≠ 0 then .error .outOfRange
        else addTo sum (product / denominator) inSeconds

def isUnitChar (c : Char) : Bool := c.isAlpha || c == 'µ'

def digitOf (c : Char) : Nat := c.toNat - '0'.toNat

/-- The digits behind a point, up to the first letter of the unit, with blanks skipped. Gives the fraction and
    the unit's offset and text. -/
def readFraction (numerator denominator offset mark : Nat) :
    List Char → Except ReadFault ((Nat × Nat) × Nat × List Char)
  | [] => if denominator = 1 then .error (.invalidCharacter mark) else .ok ((numerator, denominator), mark, [])
  | c :: rest =>
    let next := offset + c.utf8Size
    if c.isDigit then
      match word (denominator * 10), word (numerator * 10 + digitOf c) with
      | .ok denominator, .ok numerator => readFraction numerator denominator next next rest
      | _, _ => .error .outOfRange
    else if Text.isBlank c then readFraction numerator denominator next next rest
    else if isUnitChar c then
      if denominator = 1 then .error (.invalidCharacter mark)
      else .ok ((numerator, denominator), mark, c :: rest)
    else .error (.invalidCharacter mark)

/-- The digits of a number behind its first one, up to the first letter of the unit, with blanks skipped. -/
def readNumber (n offset : Nat) :
    List Char → Except ReadFault (Nat × Option (Nat × Nat) × Nat × List Char)
  | [] => .ok (n, none, offset, [])
  | c :: rest =>
    let next := offset + c.utf8Size
    if c.isDigit then
      match word (n * 10 + digitOf c) with
      | .ok n => readNumber n next rest
      | .error fault => .error fault
    else if Text.isBlank c then readNumber n next rest
    else if isUnitChar c then .ok (n, none, offset, c :: rest)
    else if c = '.' then
      match readFraction 0 1 next offset rest with
      | .ok (fraction, offset, rest) => .ok (n, some fraction, offset, rest)
      | .error fault => .error fault
    else .error (.invalidCharacter offset)

/-- The letters of a unit and what follows them, with its offset. -/
def readUnit (name : List Char) (offset : Nat) : List Char → Except ReadFault (String × Nat × List Char)
  | [] => .ok (String.ofList name.reverse, offset, [])
  | c :: rest =>
    if isUnitChar c then readUnit (c :: name) (offset + c.utf8Size) rest
    else if c.isDigit || Text.isBlank c then .ok (String.ofList name.reverse, offset, c :: rest)
    else .error (.invalidCharacter offset)

/-- The parts of a written span, added to `sum`. `start` is where the search for the next number began. -/
def readParts : Nat → Bool → Sum → Nat → Nat → List Char → Except ReadFault Sum
  | 0, _, sum, _, _, _ => .ok sum
  | _ + 1, first, sum, _, _, [] => if first then .error .empty else .ok sum
  | fuel + 1, first, sum, start, offset, c :: rest =>
    let next := offset + c.utf8Size
    if c.isDigit then do
      let (n, fraction, offset, rest) ← readNumber (digitOf c) next rest
      let (name, offset, rest) ← readUnit [] offset rest
      let sum ← addUnits sum n fraction name
      match rest with
      | d :: more =>
        if d.isDigit then readParts fuel false sum offset offset rest
        else readParts fuel false sum (offset + d.utf8Size) (offset + d.utf8Size) more
      | [] => .ok sum
    else if Text.isBlank c then readParts fuel first sum start next rest
    else .error (.numberExpected start)

/-- Reads a written span. -/
def read (text : String) : Except ReadFault Span :=
  if text = "0" then .ok .zero
  else do
    let (seconds, nanos) ← readParts (text.length + 1) true (0, 0) 0 0 text.toList
    match ofNanos? (seconds * nanosPerSecond + nanos) with
    | some span => .ok span
    | none => .error .outOfRange

/-- A part of a written span, unless it is nothing. -/
def part (n : Nat) (name plural : String) : List String :=
  if n = 0 then [] else [toString n ++ name ++ if 1 < n then plural else ""]

/-- Writes a span by its largest units. -/
def written (s : Span) : String :=
  if s.nanos = 0 then "0s"
  else
    let seconds := s.seconds
    let inYear := seconds % 31557600
    let inMonth := inYear % 2630016
    let inDay := inMonth % 86400
    let nanos := s.subsecond
    String.intercalate " "
      (part (seconds / 31557600) "year" "s" ++ part (inYear / 2630016) "month" "s" ++
        part (inMonth / 86400) "day" "s" ++ part (inDay / 3600) "h" "" ++ part (inDay % 3600 / 60) "m" "" ++
        part (inDay % 60) "s" "" ++ part (nanos / 1000000) "ms" "" ++ part (nanos / 1000 % 1000) "us" "" ++
        part (nanos % 1000) "ns" "")

end Turnstile.Span
