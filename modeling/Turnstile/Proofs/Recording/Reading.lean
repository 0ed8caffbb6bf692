import Turnstile.Guard
import Turnstile.Proofs.Json.Shape
import Turnstile.Proofs.Record.Reading
import Turnstile.Proofs.Recording

/-!
Recordings are read as they are written.

The text of a recording has its cached form, where the body is Base64 and a body that can not be carried is left out. Whoever
reads it gets the recording without such a body, and everything else as it was. A recording of which nothing is left out is
its own normal form, so one that has been through the text or the store once is not changed by going there again.
-/

namespace Turnstile.Recording

open Json (Value)
open Json.Reader

/-- The list of fields is read where it stands, three levels further in being enough for the list, a pair and its texts. -/
theorem headers_readsAs {depth : Nat} (headers : List (String × String)) :
    (list textPair).ReadsAs (depth + 3) (headersValue headers) headers :=
  list_readsAs (Nat.succ_pos _) (fun pair => textPair_readsAs (Nat.succ_pos _) pair)
    (fun _ => ⟨trivial, trivial, trivial⟩) headers

/-- The members of the cached form fill the slots in their order. Each slot is met once, by the reader of its own kind,
and the draft that is left has all four. -/
theorem fills_cached {depth : Nat} (r : Recording) :
    Fills slots (depth + 3) Draft.empty [("status", .ofNat r.status.toNat), ("headers", headersValue r.headers),
      ("body", .text r.bodyText), ("body_omitted", .bool r.bodyOmitted)] r.draft := by
  refine .member rfl rfl ((word16_readsAs r.status.toNat_lt).map _) ?_
  refine .member rfl rfl ((headers_readsAs r.headers).map _) ?_
  refine .member rfl rfl ((text_readsAs r.bodyText).map _) ?_
  refine .member rfl rfl ((flag_readsAs r.bodyOmitted).map _) ?_
  exact .nothing _

/-- The text of a recording is read as the recording without a body that can not be carried. The writer leaves such a
body out, so the reader sees the normal form and `finish_draft` takes it the rest of the way. -/
theorem read_cached (r : Recording) : read r.cached.render = .ok r.normal := by
  have whole : (do judged (← record "CachedResponse" slots Draft.empty).finish : Json.Reader Recording).ReadsAs
      Json.depthLimit r.cached r.normal := by
    intro rest stops
    refine Reads.bind (record_readsAs "CachedResponse" (by decide) r.normal.fills_cached rfl rest stops) ?_
    rw [finish_draft]
    exact reads_pure
  exact whole.readText

/-- The cached form goes through the store as it is. The record around it adds one level to at most three, and the
members are sorted already. -/
theorem read_stored (r : Recording) :
    Record.read (Record.resolved r.cached.sorted).text = .ok (.resolved r.cached.sorted) := by
  have shallow : r.cached.sorted.levels + 1 < Json.depthLimit := by
    have := Value.levels_sorted r.cached
    have := r.cached_levels
    have : 127 ≤ Json.depthLimit := by decide
    omega
  rw [Record.read_text r.cached_plain.sorted shallow, Value.sorted_sorted]

/-- A recording keeps its body exactly if it is there and can be carried; otherwise it keeps all but the body, and says
that it is left out. -/
theorem normal_eq (r : Recording) : r.normal =
    if r.bodyOmitted = false ∧ r.body.size ≤ maxCachedBody then r else { r with body := .empty, bodyOmitted := true } := by
  unfold normal omits
  by_cases whole : r.bodyOmitted = false ∧ r.body.size ≤ maxCachedBody
  · rw [if_pos whole]
    exact if_neg (by simp [whole])
  · rw [if_neg whole]
    refine if_pos ?_
    by_contra carried
    exact whole (by simpa using carried)

/-- The form without a body has none to leave out again, and one with a body is its own normal form. -/
theorem normal_normal (r : Recording) : r.normal.normal = r.normal := by
  cases omits : r.omits with
  | true =>
    have bare : r.normal = { r with body := .empty, bodyOmitted := true } := if_pos omits
    rw [bare]
    exact if_pos rfl
  | false =>
    have same : r.normal = r := if_neg (by rw [omits]; decide)
    rw [same, same]

/-- What has become of a recording that was written and read a number of times. -/
def copied : Nat → Recording → Except Json.Fault Recording
  | 0, r => .ok r
  | times + 1, r => do copied times (← read r.cached.render)

/-- A recording that is written as JSON can be read again. What is read has the same status and the same fields in the same
order, and the same body if there was one of at most `maxCachedBody` octets, else none and the mark that it was left out.
To write and read that again changes nothing, and neither does the way through the store. -/
theorem cached_form_is_faithful (r : Recording) :
    read r.cached.render = .ok r.normal ∧
    (r.normal =
      if r.bodyOmitted = false ∧ r.body.size ≤ maxCachedBody then r else { r with body := .empty, bodyOmitted := true }) ∧
    r.normal.normal = r.normal ∧
    (∀ times, r.copied (times + 1) = .ok r.normal) ∧
    ∃ value, Codec.recording.encode r = .ok value ∧ Record.read (Record.resolved value).text = .ok (.resolved value) ∧
      Codec.recording.decode value = .ok r.normal := by
  refine ⟨r.read_cached, r.normal_eq, r.normal_normal, ?_, r.cached.sorted, rfl, r.read_stored, ?_⟩
  · intro times
    have again (times : Nat) : r.normal.copied times = .ok r.normal := by
      induction times with
      | zero => rfl
      | succ times inductionHypothesis =>
        rw [copied, read_cached, normal_normal]
        exact inductionHypothesis
    rw [copied, read_cached]
    exact again times
  · exact r.ofValue_cached

end Turnstile.Recording
