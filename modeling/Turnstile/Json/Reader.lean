import Turnstile.Json.Text

/-!
JSON texts read as values.

`value` reads any value; `valueSkipped` passes over one and checks its form only. The parts of arrays and
objects are shared with the readers of fixed shapes. Arrays and objects are read by a count of steps that the
rest of the text bounds.
-/

namespace Turnstile.Json

open Text (Glyph)

namespace Reader

variable {α : Type}

/-- Whether an array goes on, and if so moves to its next item. -/
def hasItem (first : Bool) : Reader Bool := do
  match ← skipBlanks with
  | none => failAhead .endInList
  | some g =>
    if g = .char ']' then return false
    else if first then return true
    else if g = .char ',' then
      bump
      match ← skipBlanks with
      | none => failAhead .endInValue
      | some g => if g = .char ']' then failAhead .trailingComma else return true
    else failAhead .listCommaExpected

/-- Whether an object goes on, and if so moves into its next name. -/
def hasMember (first : Bool) : Reader Bool := do
  match ← skipBlanks with
  | none => failAhead .endInObject
  | some g =>
    if g = .char '\x7d' then return false
    else if first then
      if g = .char '"' then
        bump
        return true
      else failAhead .nameExpected
    else if g = .char ',' then
      bump
      match ← skipBlanks with
      | none => failAhead .endInValue
      | some g =>
        if g = .char '"' then
          bump
          return true
        else if g = .char '\x7d' then failAhead .trailingComma
        else failAhead .nameExpected
    else failAhead .objectCommaExpected

def colon : Reader Unit := do
  match ← skipBlanks with
  | none => failAhead .endInObject
  | some g => if g = .char ':' then bump else failAhead .colonExpected

/-- The bracket that closes an array. -/
def closeList : Reader Unit := do
  match ← skipBlanks with
  | none => failAhead .endInList
  | some g =>
    if g = .char ']' then bump
    else if g = .char ',' then
      bump
      match ← attempt skipBlanks with
      | .ok (some g) => if g = .char ']' then failAhead .trailingComma else failAhead .trailingText
      | _ => failAhead .trailingText
    else failAhead .trailingText

/-- The brace that closes an object. -/
def closeObject : Reader Unit := do
  match ← skipBlanks with
  | none => failAhead .endInObject
  | some g =>
    if g = .char '\x7d' then bump
    else if g = .char ',' then failAhead .trailingComma
    else failAhead .trailingText

/-- Runs the inside of an array or object and then its end, which is read even when the inside failed; the
    inside's fault comes first. -/
def enclosed (inside : Reader α) (close : Reader Unit) : Reader α := do
  let answer ← attempt (deeper (do bump; inside))
  match answer with
  | .error fault =>
    let _ ← attempt close
    throw fault
  | .ok a =>
    close
    return a

mutual

/-- Any value. -/
def valueFrom : Nat → Reader Value
  | 0 => failAhead .endInValue
  | fuel + 1 => do
    match ← skipBlanks with
    | none => failAhead .endInValue
    | some (.stray _) => failAhead .valueExpected
    | some (.char c) =>
      if c = 'n' then
        bump
        word "ull".toList
        return .null
      else if c = 't' then
        bump
        word "rue".toList
        return .bool true
      else if c = 'f' then
        bump
        word "alse".toList
        return .bool false
      else if c = '-' then
        bump
        return (← number true).value
      else if c.isDigit then return (← number false).value
      else if c = '"' then
        bump
        return .text (← string)
      else if c = '[' then return .array (← enclosed (itemsFrom fuel true []) closeList)
      else if c = '\x7b' then return .object (← enclosed (membersFrom fuel true []) closeObject)
      else failAhead .valueExpected

/-- The items of an array; `done` holds those read, last first. -/
def itemsFrom : Nat → Bool → List Value → Reader (List Value)
  | 0, _, _ => failAhead .endInList
  | fuel + 1, first, done => do
    if ← hasItem first then
      let v ← valueFrom fuel
      itemsFrom fuel false (v :: done)
    else return done.reverse

/-- The members of an object, sorted by name; of two with one name the later stays. -/
def membersFrom : Nat → Bool → List (String × Value) → Reader (List (String × Value))
  | 0, _, _ => failAhead .endInObject
  | fuel + 1, first, done => do
    if ← hasMember first then
      let name ← string
      colon
      let v ← valueFrom fuel
      membersFrom fuel false (Value.put name v done)
    else return done

end

/-- Steps enough for what is left of the text. -/
def steps : Reader Nat := return 2 * (← get).rest.length + 4

def value : Reader Value := do
  valueFrom (← steps)

/-- Brackets still open, innermost first: `true` for an object. -/
abbrev Open := List Bool

/-- Behind a finished part: a comma leads to the next one, closing brackets end what they close. Gives what
    is still open if there is a next part. -/
def closing : Nat → Bool → Open → Reader Open
  | 0, _, _ => return []
  | _, _, [] => return []
  | fuel + 1, afterPart, inObject :: outer => do
    match ← skipBlanks with
    | none => failAhead (if inObject then .endInObject else .endInList)
    | some g =>
      if afterPart && g = .char ',' then
        bump
        return inObject :: outer
      else if g = .char (if inObject then '\x7d' else ']') then
        bump
        closing fuel true outer
      else if afterPart then failAhead (if inObject then .objectCommaExpected else .listCommaExpected)
      else return inObject :: outer

/-- The name and colon before a member that is passed over. -/
def nameSkipped : Reader Unit := do
  match ← skipBlanks with
  | none => failAhead .endInObject
  | some g => if g = .char '"' then bump else failAhead .nameExpected
  stringSkipped
  match ← skipBlanks with
  | none => failAhead .endInObject
  | some g => if g = .char ':' then bump else failAhead .colonExpected

/-- Passes over one value and all that is open around it. Nesting has no limit here. -/
def skippedFrom : Nat → Open → Reader Unit
  | 0, _ => return
  | fuel + 1, brackets => do
    let opened : Option Bool ← do
      match ← skipBlanks with
      | none => failAhead .endInValue
      | some (.stray _) => failAhead .valueExpected
      | some (.char c) =>
        if c = 'n' then
          bump
          word "ull".toList
          pure none
        else if c = 't' then
          bump
          word "rue".toList
          pure none
        else if c = 'f' then
          bump
          word "alse".toList
          pure none
        else if c = '-' then
          bump
          numberSkipped
          pure none
        else if c.isDigit then
          numberSkipped
          pure none
        else if c = '"' then
          bump
          stringSkipped
          pure none
        else if c = '[' ∨ c = '\x7b' then
          bump
          pure (some (c = '\x7b'))
        else failAhead .valueExpected
    let brackets ← match opened with
      | none => closing fuel true brackets
      | some inObject => closing fuel false (inObject :: brackets)
    match brackets with
    | [] => return
    | inObject :: _ =>
      if inObject then nameSkipped
      skippedFrom fuel brackets

/-- Passes over one value. -/
def valueSkipped : Reader Unit := do
  skippedFrom (← steps) []

/-- Nothing but blanks may be left. -/
def finish : Reader Unit := do
  match ← skipBlanks with
  | none => return
  | some _ => failAhead .trailingText

/-- Reads from the front of a run of glyphs. A fault comes with the way to the part that failed. -/
def readFront (r : Reader α) (glyphs : List Glyph) : Except (List Segment × Fault) α :=
  match r.run (Cursor.start glyphs) with
  | (.ok a, _) => .ok a
  | (.error fault, c) => .error (c.trail, fault)

/-- Reads a whole run of glyphs. -/
def readAll (r : Reader α) (glyphs : List Glyph) : Except Fault α :=
  ((do let a ← r; finish; return a : Reader α).run (Cursor.start glyphs)).1

/-- Reads a whole text. -/
def readText (r : Reader α) (text : String) : Except Fault α := r.readAll (Glyph.ofText text)

end Reader

/-- The value of a whole text. -/
def Value.read (text : String) : Except Fault Value := Reader.value.readText text

end Turnstile.Json
