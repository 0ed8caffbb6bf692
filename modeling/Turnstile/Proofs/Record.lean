import Turnstile.Record

/-!
The texts of records.

The text of a pending record is always the same, reads as a pending record, and is the text of no result.
-/

namespace Turnstile

open Json (Value stringChars)

namespace Record

/-- No result has the text of a pending record. -/
theorem text_ne_placeholder (result : Value) : (resolved result).text ≠ placeholder := by
  intro same
  have chars := congrArg String.toList same
  have state : stringChars "state" = ['"', 's', 't', 'a', 't', 'e', '"'] := by decide
  have pending : stringChars "pending" = ['"', 'p', 'e', 'n', 'd', 'i', 'n', 'g', '"'] := by decide
  have resolved : stringChars "resolved" = ['"', 'r', 'e', 's', 'o', 'l', 'v', 'e', 'd', '"'] := by decide
  simp [text, placeholder, value, Value.render, Value.chars, Value.membersChars, state, pending, resolved]
    at chars

/-- The text of a pending record is read as one. -/
theorem read_placeholder : read placeholder = .ok .pending := by
  have unresolved : (read placeholder).toOption.map isResolved = some false := by decide +kernel
  generalize read placeholder = outcome at unresolved ⊢
  rcases outcome with fault | _ | result
  · cases unresolved
  · rfl
  · cases unresolved

end Record

end Turnstile
