import Turnstile.Time
import Turnstile.Json.Value
import Turnstile.Text.Quoted

/-!
What can be wrong with a JSON text, or with the value in it, and how it is reported.

A cause of the text's own form is always placed: line and column in octets. A cause found in the meaning of
the text is placed by the reader that was at work.
-/

namespace Turnstile.Json

/-- What stood where something else was expected. -/
inductive Found where
  | null
  | bool (b : Bool)
  | integer (n : Int)
  | real (x : Binary64)
  | text (s : String)
  | sequence
  | map
  deriving Repr

/-- What is told about what stood there. -/
def Found.show : Found → String
  | .null => "null"
  | .bool b => "boolean `" ++ (if b then "true" else "false") ++ "`"
  | .integer n => "integer `" ++ toString n ++ "`"
  | .real x => "floating point `" ++ Decimal.compact x ++ "`"
  | .text s => "string " ++ Text.quoted s
  | .sequence => "sequence"
  | .map => "map"

/-- What a value is, for a report. -/
def Value.found : Value → Found
  | .null => .null
  | .bool b => .bool b
  | .integer n => .integer n
  | .real x => .real x
  | .text s => .text s
  | .array _ => .sequence
  | .object _ => .map

/-- What is wrong. -/
inductive Cause where
  | endInList
  | endInObject
  | endInString
  | endInValue
  | colonExpected
  | listCommaExpected
  | objectCommaExpected
  | wordExpected
  | valueExpected
  | badEscape
  | badNumber
  | numberTooLarge
  | badCodePoint
  | controlInString
  | nameExpected
  | loneSurrogate
  | trailingComma
  | trailingText
  | halfSurrogatePair
  | tooDeep
  | wrongType (found : Found) (expected : String)
  | wrongValue (found : Found) (expected : String)
  | wrongLength (length : Nat) (expected : String)
  | missingField (name : String)
  | repeatedField (name : String)
  | unknownVariant (name : String) (known : List String)
  | unreadable (why : String)
  /-- Making sense of a part breaks off. -/
  | broke (why : Breakdown)
  deriving Repr

/-- Names joined as a choice. -/
def choice : List String → String
  | [] => ""
  | [a] => "`" ++ a ++ "`"
  | [a, b] => "`" ++ a ++ "` or `" ++ b ++ "`"
  | names => "one of " ++ String.intercalate ", " (names.map fun n => "`" ++ n ++ "`")

/-- What is told about a cause. -/
def Cause.message : Cause → String
  | .endInList => "EOF while parsing a list"
  | .endInObject => "EOF while parsing an object"
  | .endInString => "EOF while parsing a string"
  | .endInValue => "EOF while parsing a value"
  | .colonExpected => "expected `:`"
  | .listCommaExpected => "expected `,` or `]`"
  | .objectCommaExpected => "expected `,` or `\x7d`"
  | .wordExpected => "expected ident"
  | .valueExpected => "expected value"
  | .badEscape => "invalid escape"
  | .badNumber => "invalid number"
  | .numberTooLarge => "number out of range"
  | .badCodePoint => "invalid unicode code point"
  | .controlInString => "control character (\\u0000-\\u001F) found while parsing a string"
  | .nameExpected => "key must be a string"
  | .loneSurrogate => "lone leading surrogate in hex escape"
  | .trailingComma => "trailing comma"
  | .trailingText => "trailing characters"
  | .halfSurrogatePair => "unexpected end of hex escape"
  | .tooDeep => "recursion limit exceeded"
  | .wrongType found expected => "invalid type: " ++ found.show ++ ", expected " ++ expected
  | .wrongValue found expected => "invalid value: " ++ found.show ++ ", expected " ++ expected
  | .wrongLength n expected => "invalid length " ++ toString n ++ ", expected " ++ expected
  | .missingField name => "missing field `" ++ name ++ "`"
  | .repeatedField name => "duplicate field `" ++ name ++ "`"
  | .unknownVariant name known => "unknown variant `" ++ name ++ "`, expected " ++ choice known
  | .unreadable why => why
  | .broke why => why.message

/-- Whether the cause lies in the meaning of the text and not in its form. -/
def Cause.isMeaning : Cause → Bool
  | .wrongType .. | .wrongValue .. | .wrongLength .. | .missingField .. | .repeatedField ..
  | .unknownVariant .. | .unreadable .. | .broke .. => true
  | _ => false

/-- A line, counted from one, and a column, counted in octets from the line break. -/
structure Position where
  line : Nat
  column : Nat
  deriving DecidableEq, Repr

/-- A cause and its place. -/
structure Fault where
  cause : Cause
  position : Option Position
  deriving Repr

/-- What is told about a fault, with its place if it has one. -/
def Fault.message (f : Fault) : String :=
  match f.position with
  | none => f.cause.message
  | some p => f.cause.message ++ s!" at line {p.line} column {p.column}"

end Turnstile.Json
