import Turnstile.Json.Fault
import Turnstile.Text.Glyph

/-!
A place in a JSON text, and readers that move it.

A reader keeps the place it reached also when it fails, because that is where a fault of meaning is reported.
Columns count octets from the last line break.
-/

namespace Turnstile.Json

open Text (Glyph)

/-- How deep arrays and objects may nest. -/
def depthLimit : Nat := 128

/-- A step on the way to a part of a value. -/
inductive Segment where
  | member (name : String)
  | item (index : Nat)
  deriving DecidableEq, Repr

/-- A place in a text, and what is left of it from there. -/
structure Cursor where
  rest : List Glyph
  position : Position
  /-- Levels of nesting still allowed, and one. -/
  depth : Nat
  /-- The way to the part that failed, outermost step first; empty as long as nothing has failed. -/
  trail : List Segment

/-- The start of a text. -/
def Cursor.start (glyphs : List Glyph) : Cursor := ⟨glyphs, ⟨1, 0⟩, depthLimit, []⟩

/-- The place behind a character. -/
def Position.after (p : Position) (g : Glyph) : Position :=
  if g = .char '\n' then ⟨p.line + 1, 0⟩ else ⟨p.line, p.column + g.width⟩

/-- The next character. -/
def Cursor.peek? (c : Cursor) : Option Glyph := c.rest.head?

/-- The next character when it is ASCII or any other; a stray piece gives none of interest. -/
def Cursor.peekChar (c : Cursor) : Char :=
  match c.rest with
  | .char ch :: _ => ch
  | _ => Char.ofNat 0

/-- Moves past the next character. -/
def Cursor.bump (c : Cursor) : Cursor :=
  match c.rest with
  | [] => c
  | g :: rest => { c with rest := rest, position := c.position.after g }

/-- The place one octet ahead, unless the text is at its end. -/
def Cursor.ahead (c : Cursor) : Position :=
  match c.rest with
  | [] => c.position
  | g :: _ => if g = .char '\n' then ⟨c.position.line + 1, 0⟩ else ⟨c.position.line, c.position.column + 1⟩

/-- A reader: an answer or a fault, and the place reached. -/
abbrev Reader := ExceptT Fault (StateM Cursor)

namespace Reader

variable {α : Type}

/-- Fails here. -/
def failHere (cause : Cause) : Reader α := do
  throw ⟨cause, some (← get).position⟩

/-- Fails at the next octet. -/
def failAhead (cause : Cause) : Reader α := do
  throw ⟨cause, some (← get).ahead⟩

/-- Fails with a fault that is placed later. -/
def failUnplaced (cause : Cause) : Reader α := throw ⟨cause, none⟩

/-- Runs a reader and gives its fault as an answer. -/
def attempt (r : Reader α) : Reader (Except Fault α) := fun c =>
  let (result, c) := r.run c
  (.ok result, c)

/-- Places an unplaced fault where the reader stopped. -/
def placed (r : Reader α) : Reader α := fun c =>
  match r.run c with
  | (.error ⟨cause, none⟩, c) => (.error ⟨cause, some c.position⟩, c)
  | other => other

/-- Runs the reader of a part; if it fails, the step to the part is put on the trail. -/
def within (step : Segment) (r : Reader α) : Reader α := fun c =>
  match r.run c with
  | (.error fault, c) => (.error fault, { c with trail := step :: c.trail })
  | other => other

def bump : Reader Unit := modify Cursor.bump

/-- The next character, or the null character at the end. -/
def peekChar : Reader Char := return (← get).peekChar

/-- The four characters that may stand between the parts of a value. -/
def isJsonBlank (g : Glyph) : Bool :=
  g = .char ' ' || g = .char '\n' || g = .char '\t' || g = .char '\r'

def skipBlanksFrom (position : Position) : List Glyph → List Glyph × Position
  | [] => ([], position)
  | g :: rest => if isJsonBlank g then skipBlanksFrom (position.after g) rest else (g :: rest, position)

/-- Skips blanks and looks at what follows. -/
def skipBlanks : Reader (Option Glyph) := do
  modify fun c =>
    let (rest, position) := skipBlanksFrom c.position c.rest
    { c with rest := rest, position := position }
  return (← get).peek?

/-- Takes the next glyph if `accept` answers it; anything else is read for one octet and refused. -/
def nextOr (accept : Char → Option α) (atEnd refused : Cause) : Reader α := do
  let c ← get
  match c.rest with
  | [] => failHere atEnd
  | .char ch :: _ =>
    match accept ch with
    | some answer =>
      bump
      return answer
    | none => throw ⟨refused, some c.ahead⟩
  | .stray _ :: _ => throw ⟨refused, some c.ahead⟩

/-- The rest of a word whose first letter has been read. -/
def word : List Char → Reader Unit
  | [] => return
  | expected :: more => do
    nextOr (fun c => if c = expected then some () else none) .endInValue .wordExpected
    word more

/-- Runs a reader one level deeper. -/
def deeper (r : Reader α) : Reader α := do
  let depth := (← get).depth
  if depth ≤ 1 then failAhead .tooDeep
  else
    modify fun c => { c with depth := depth - 1 }
    let answer ← r
    modify fun c => { c with depth := depth }
    return answer

end Reader

end Turnstile.Json
