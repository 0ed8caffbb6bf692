import Turnstile.Text.Glyph

/-!
The target of a request: a path, and behind a question mark a query.

Octets are escaped as `%` and two hexadecimal digits. A query is a list of names with values; there a plus
stands for a blank.
-/

namespace Turnstile.Http

/-- A target in its two parts. -/
structure Target where
  path : String
  query : String
  deriving DecidableEq, Repr

namespace Target

/-- What follows the authority in a target that begins with a scheme. -/
def afterAuthority : List Char → Option (List Char)
  | ':' :: '/' :: '/' :: rest => some (rest.dropWhile fun c => c ≠ '/' && c ≠ '?' && c ≠ '#')
  | _ :: rest => afterAuthority rest
  | [] => none

/-- Splits the text of a path and a query. A fragment does not count, and no path is the root. -/
def ofPath (cs : List Char) : Target :=
  let cs := cs.takeWhile (· ≠ '#')
  let path := cs.takeWhile (· ≠ '?')
  ⟨if path.isEmpty then "/" else String.ofList path, String.ofList ((cs.dropWhile (· ≠ '?')).drop 1)⟩

/-- Splits a target. A star is a path of its own; an authority alone has no path at all. -/
def ofText (text : String) : Target :=
  let cs := text.toList
  if cs.head? = some '/' then ofPath cs
  else if text = "*" then ⟨text, ""⟩
  else ((afterAuthority cs).map ofPath).getD ⟨"", ""⟩

/-- The value of a hexadecimal digit. -/
def hexDigit? (b : UInt8) : Option UInt8 :=
  if 48 ≤ b ∧ b ≤ 57 then some (b - 48)
  else if 97 ≤ b ∧ b ≤ 102 then some (b - 87)
  else if 65 ≤ b ∧ b ≤ 70 then some (b - 55)
  else none

/-- Resolves escapes. A percent sign without two digits stands for itself. -/
def unescaped : List UInt8 → List UInt8
  | 37 :: a :: b :: rest =>
    match hexDigit? a, hexDigit? b with
    | some high, some low => (high * 16 + low) :: unescaped rest
    | _, _ => 37 :: unescaped (a :: b :: rest)
  | b :: rest => b :: unescaped rest
  | [] => []

/-- A name or value of a query as text. -/
def formText (cs : List Char) : String :=
  let octets := (String.ofList cs).toUTF8.data.toList
  Text.lossy (unescaped (octets.map fun b => if b = 43 then 32 else b))

/-- The pieces of a text between ampersands. -/
def pieces (cs : List Char) : List (List Char) := cs.splitOn '&'

/-- The names and values of a query. -/
def parameters (t : Target) : List (String × String) :=
  ((pieces t.query.toList).filter (!·.isEmpty)).map fun piece =>
    (formText (piece.takeWhile (· ≠ '=')), formText ((piece.dropWhile (· ≠ '=')).drop 1))

end Target

end Turnstile.Http
