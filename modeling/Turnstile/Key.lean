import Turnstile.Text.Quoted

/-!
Keys of the records in the store.

A bucket key names a client, an endpoint and a method. Each is brought into a form that cannot hold the
colon that separates them and is never empty. The record of an idempotency key and the lock on it have
prefixes of their own, so that they can not be mistaken for each other.
-/

namespace Turnstile

/-- Characters that stand for themselves in a segment. -/
def isSegmentChar (c : Char) : Bool := c.isAlphanum || c == '.' || c == '_' || c == '-'

/-- A segment of a key: trimmed, every other character an underscore, and one underscore for nothing. -/
def segment (s : String) : String :=
  match Text.trimChars s.toList with
  | [] => "_"
  | cs => String.ofList (cs.map fun c => if isSegmentChar c then c else '_')

/-- A path as a segment, without its slashes. -/
def endpointSegment (path : String) : String := segment (String.ofList (path.toList.filter (· != '/')))

/-- A method as a segment, in upper case. -/
def methodSegment (method : String) : String := segment (String.ofList (method.toList.map Char.toUpper))

/-- The key of one bucket. -/
structure BucketKey where
  text : String
  deriving DecidableEq, Repr

namespace BucketKey

/-- The bucket of a client at a path with a method. -/
def of (client path method : String) : BucketKey :=
  ⟨"rate_limit:" ++ segment client ++ ":" ++ endpointSegment path ++ ":" ++ methodSegment method⟩

end BucketKey

/-- The store's key for the record of an idempotency key. -/
def recordKey (key : String) : String := "idempotency:" ++ key

/-- The store's key for the lock on an idempotency key. -/
def lockKey (key : String) : String := "idempotency_lock:" ++ key

/-- What is wrong with an idempotency key. -/
inductive KeyFault where
  | missing
  | tooLong
  | forbidden
  deriving DecidableEq, Repr

/-- The greatest length of an idempotency key, in octets. -/
def maxKeyLength : Nat := 256

/-- Printable ASCII without the space. -/
def isKeyChar (c : Char) : Bool := 0x21 ≤ c.toNat && c.toNat ≤ 0x7e

/-- The first thing wrong with a presented key. -/
def keyFault? (key : String) : Option KeyFault :=
  if key.isEmpty then some .missing
  else if maxKeyLength < key.utf8ByteSize then some .tooLong
  else if !key.toList.all isKeyChar then some .forbidden
  else none

end Turnstile
