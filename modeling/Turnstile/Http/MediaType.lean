import Turnstile.Http.Header

/-!
Media types: `application/json; charset=utf-8`.

A type, a subtype and parameters. A type is JSON if its subtype is, or if the subtype ends in a plus sign and
`json`. In quotes the first character of a value never ends it, whatever it is.
-/

namespace Turnstile.Http.MediaType

/-- Characters of the words in a media type. -/
def isWordChar (c : Char) : Bool := isNameChar c

/-- Characters between quotes. -/
def isQuotedChar (c : Char) : Bool := 32 ≤ c.toNat && c.toNat ≠ 127

/-- What follows a value in quotes, from behind the opening quote on. -/
def afterQuoted : List Char → Option (List Char)
  | [] => none
  | c :: cs =>
    if !isQuotedChar c || !(cs.takeWhile (· ≠ '"')).all isQuotedChar then none
    else
      match cs.dropWhile (· ≠ '"') with
      | [] => none
      | _ :: rest =>
        match rest.dropWhile (· = ' ') with
        | [] => some []
        | ';' :: rest => some rest
        | _ => none

/-- What follows the value of a parameter and the semicolon behind it. -/
def afterValue (cs : List Char) : Option (List Char) :=
  match cs with
  | '"' :: quoted => afterQuoted quoted
  | cs =>
    match cs.dropWhile isWordChar with
    | [] => some []
    | ';' :: rest => if (cs.takeWhile isWordChar).isEmpty then none else some rest
    | _ => none

/-- Whether parameters are well formed. -/
def areParameters : Nat → List Char → Bool
  | _, [] => true
  | 0, _ => false
  | fuel + 1, cs =>
    match cs.dropWhile (· = ' ') with
    | [] => true
    | cs =>
      match cs.takeWhile isWordChar, cs.dropWhile isWordChar with
      | _ :: _, '=' :: rest =>
        match afterValue rest with
        | some rest => areParameters fuel rest
        | none => false
      | _, _ => false

/-- A subtype, and what stands behind its last plus sign. A plus sign in front does not count. -/
def splitSubtype (cs : List Char) : List Char × Option (List Char) :=
  let body := cs.drop 1
  if body.contains '+' then
    let suffix := (body.reverse.takeWhile (· ≠ '+')).reverse
    (cs.take (cs.length - suffix.length - 1), some suffix)
  else (cs, none)

/-- Whether a media type is JSON, or is written in it. -/
def isJson (text : String) : Bool :=
  let cs := text.toList.map Char.toLower
  let kind := cs.takeWhile isWordChar
  match cs.dropWhile isWordChar with
  | '/' :: rest =>
    let (subtype, suffix?) := splitSubtype (rest.takeWhile isWordChar)
    let wellFormed := match rest.dropWhile isWordChar with
      | [] => true
      | ';' :: parameters => areParameters parameters.length parameters
      | _ => false
    wellFormed && kind = "application".toList && (subtype = "json".toList || suffix? = some "json".toList)
  | _ => false

end Turnstile.Http.MediaType
