import Turnstile.Key

/-!
The three kinds of keys in the store stay apart.

The record of an idempotency key, the lock on one and a bucket never share a key, whatever texts clients
present: their prefixes part before anything a client wrote.
-/

namespace Turnstile

/-- A record is never at the key of a lock, since their prefixes part before the idempotency key begins. -/
theorem recordKey_ne_lockKey (k other : String) : recordKey k ≠ lockKey other := by
  intro same
  have chars := congrArg String.toList same
  simp [recordKey, lockKey] at chars

/-- A bucket is never at the key of a record: the text of a client comes only behind the prefix, and the prefixes part
before that. -/
theorem bucketKey_ne_recordKey (client path method k : String) :
    (BucketKey.of client path method).text ≠ recordKey k := by
  intro same
  have chars := congrArg String.toList same
  simp [BucketKey.of, recordKey] at chars

/-- A bucket is never at the key of a lock, as their prefixes part, too. -/
theorem bucketKey_ne_lockKey (client path method k : String) :
    (BucketKey.of client path method).text ≠ lockKey k := by
  intro same
  have chars := congrArg String.toList same
  simp [BucketKey.of, lockKey] at chars

/-- Records of different keys are at different keys, for behind the prefix stands the whole idempotency key. -/
theorem recordKey_injective {k other : String} (same : recordKey k = recordKey other) : k = other := by
  have chars := congrArg String.toList same
  exact String.toList_inj.mp (by simpa [recordKey] using chars)

/-- Locks on different keys are at different keys, for the same reason. -/
theorem lockKey_injective {k other : String} (same : lockKey k = lockKey other) : k = other := by
  have chars := congrArg String.toList same
  exact String.toList_inj.mp (by simpa [lockKey] using chars)

end Turnstile
