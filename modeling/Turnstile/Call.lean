import Turnstile.Bucket

/-!
The calls of the shared store.

Whoever keeps the records, each call is one atomic step for them. All that this library knows about a store is
what these calls answer.
-/

namespace Turnstile

/-- One call of the store. A value is kept for as long as its `life`. -/
inductive Call where
  /-- The value at a key. -/
  | get (key : String)
  | set (key value : String) (life : Span)
  /-- Sets a value unless the key has one; answers whether it did. -/
  | setIfAbsent (key value : String) (life : Span)
  /-- Replaces the expected value; answers whether it did. -/
  | compareAndSet (key expected value : String) (life : Span)
  /-- Removes what is at a key; answers whether there was anything. -/
  | delete (key : String)
  /-- Removes the expected value; answers whether it did. -/
  | deleteIfEquals (key expected : String)
  /-- Asks the bucket at a key for tokens. A key without a bucket has a full one. -/
  | take (key : String) (limit : Limit) (cost : UInt32)
  | ping
  deriving DecidableEq, Repr

namespace Call

/-- What a call answers. -/
abbrev Reply : Call → Type
  | .get _ => Option String
  | .set .. => Unit
  | .setIfAbsent .. => Bool
  | .compareAndSet .. => Bool
  | .delete _ => Bool
  | .deleteIfEquals .. => Bool
  | .take .. => Grant
  | .ping => String

/-- The key that a call touches. -/
def key? : Call → Option String
  | .get key | .set key _ _ | .setIfAbsent key _ _ | .compareAndSet key _ _ _ | .delete key
  | .deleteIfEquals key _ | .take key _ _ => some key
  | .ping => none

/-- The call's name. -/
def name : Call → String
  | .get _ => "get"
  | .set .. => "set"
  | .setIfAbsent .. => "set_if_absent"
  | .compareAndSet .. => "compare_and_set"
  | .delete _ => "delete"
  | .deleteIfEquals .. => "delete_if_equals"
  | .take .. => "take_tokens"
  | .ping => "ping"

end Call

end Turnstile
