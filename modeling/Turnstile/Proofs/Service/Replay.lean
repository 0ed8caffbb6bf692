import Turnstile.Proofs.Recording.Reading
import Turnstile.Proofs.Service.Passages

/-!
A replay is the response that the first caller got.

The first response is made of the recording itself. A replay is made of what became of that recording on its way through
the store: written as JSON with its body in Base64, read again and decoded. Both go through the same fields, so what can
differ is the body that was too large to be kept, and what the guard adds to each response by itself.
-/

namespace Turnstile

open Http (Headers Request Response)
open Json (Value)

/-- The fields that the guard sets beside those of the recorded response. -/
def guardFields : List String :=
  ["x-ratelimit-limit", "x-ratelimit-remaining", "x-throttled", "x-ratelimit-degraded", "idempotent-replayed"]

/-- The field that tells that a body was left out. -/
def omissionField : String := "idempotent-body-omitted"

/-- Two responses have the same fields, but for some names: of each other name the same values in the same order. -/
def Http.SameFields (left : List String) (a b : Response) : Prop :=
  ∀ name ∉ left, b.headers.values name = a.headers.values name

/-- How a replay repeats the response that the first caller got, by what the operation had answered. -/
structure Repeats (answer first again : Response) : Prop where
  status : first.status = answer.status ∧ again.status = answer.status
  /-- The body could be read and is kept. -/
  kept : ∀ octets, answer.body.octets? maxReadBody = some octets → octets.size ≤ maxCachedBody →
    first.body = .whole octets ∧ again.body = .whole octets ∧ Http.SameFields guardFields first again
  /-- The body could be read and is too large to be kept. -/
  large : ∀ octets, answer.body.octets? maxReadBody = some octets → maxCachedBody < octets.size →
    first.body = .whole octets ∧ again.body = .empty ∧
      again.headers.values omissionField = [Http.octetsOf "true"] ∧ again.headers.values "content-type" = [] ∧
        Http.SameFields (omissionField :: "content-type" :: guardFields) first again
  /-- The body could not be read. -/
  unread : answer.body.octets? maxReadBody = none →
    first.body = .empty ∧ again.body = .empty ∧ first.headers.values omissionField = [Http.octetsOf "true"] ∧
      Http.SameFields guardFields first again
  /-- Fields of the connection are in neither. -/
  connection : answer.headers.Sound → ∀ name ∈ connectionFields,
    first.headers.values name = [] ∧ again.headers.values name = []

namespace Service

variable {name : String}

/-- Setting a field leaves one value of its name, and all values of the others. -/
theorem values_withHeader (r : Response) (set value name : String) :
    (r.withHeader set value).headers.values name = if name = set then [Http.octetsOf value] else r.headers.values name :=
  Headers.values_set r.headers set value name

/-- The fields that tell of an admission are among those of the guard, so no others change. -/
theorem values_withAdmission (r : Response) (a : Admission) (other : name ∉ guardFields) :
    (withAdmission r a).headers.values name = r.headers.values name := by
  simp only [guardFields, List.mem_cons, not_or] at other
  unfold withAdmission
  cases a.degraded <;> simp [values_withHeader, other]

/-- The guard adds its own fields to a recorded response and leaves the others. A replay has one more of them. -/
theorem values_guardedResponse (g : Guarded Recording) (other : name ∉ guardFields) :
    (guardedResponse (.ok g)).headers.values name = g.result.respond.headers.values name := by
  have unmarked : name ≠ "idempotent-replayed" := fun same => other (by rw [same]; decide)
  obtain ⟨result, replayed, admission⟩ := g
  cases replayed with
  | false => exact values_withAdmission _ _ other
  | true =>
    refine (values_withHeader _ _ _ _).trans ?_
    rw [if_neg unmarked, values_withAdmission _ _ other]

/-- The body is that of the recording, whatever fields are added. -/
theorem body_guardedResponse (g : Guarded Recording) : (guardedResponse (.ok g)).body = .whole g.result.body := by
  obtain ⟨result, replayed, limit, remaining, throttled, delay, degraded⟩ := g
  cases replayed <;> cases degraded <;> rfl

/-- And so is the status. -/
theorem status_guardedResponse (g : Guarded Recording) : (guardedResponse (.ok g)).status = g.result.respond.status := by
  obtain ⟨result, replayed, limit, remaining, throttled, delay, degraded⟩ := g
  cases replayed <;> cases degraded <;> rfl

end Service

namespace Recording

variable (r : Recording)

/-- Leaving out a body leaves the recorded fields. -/
theorem fields_normal : r.normal.fields = r.fields := by
  unfold normal
  split <;> rfl

/-- And it leaves the status, with the body or without. -/
theorem status_normal : r.normal.respond.status = r.respond.status := by
  unfold normal
  split <;> rfl

/-- A body that is there and not too large is kept, so the recording is its own normal form. -/
theorem normal_of_small {r : Recording} (whole : r.bodyOmitted = false) (small : r.body.size ≤ maxCachedBody) :
    r.normal = r :=
  if_neg (by simp [omits, whole, small])

/-- A body that is too large is left out, and nothing else. -/
theorem normal_of_large {r : Recording} (large : maxCachedBody < r.body.size) :
    r.normal = { r with body := .empty, bodyOmitted := true } :=
  if_pos (by simp [omits, large])

/-- Where the body was left out already, the normal form has nothing to leave out. -/
theorem normal_of_unread {r : Recording} (unread : (r.body, r.bodyOmitted) = (.empty, true)) : r.normal = r := by
  obtain ⟨empty, omitted⟩ := Prod.mk.inj unread
  unfold normal
  split
  · rw [← empty, ← omitted]
  · rfl

/-- The fields of a connection are in no response that is made of a recorded one. They are not recorded, and the two
fields that are changed for a body that was left out are not of the connection. -/
theorem values_connection {answer : Response} {r : Recording} {name : String} (sound : answer.headers.Sound)
    (fields : r.fields = (ofResponse answer).fields) (connection : name ∈ connectionFields) :
    r.respond.headers.values name = [] := by
  have apart : ∀ name ∈ connectionFields, name ≠ "idempotent-body-omitted" ∧ name ≠ "content-type" := by decide
  obtain ⟨unmarked, untyped⟩ := apart name connection
  rw [values_respond, fields, values_fields sound]
  simp [connection, unmarked, untyped]

end Recording

/-- A recording that stays as it is on its way through the store gives the same fields, but for those of the guard. Only
in those can the admission of the first request and that of the replay differ. -/
theorem Service.sameFields_of_normal {r : Recording} (same : r.normal = r) (admission admission' : Admission) :
    Http.SameFields guardFields (guardedResponse (.ok ⟨r, false, admission⟩))
      (guardedResponse (.ok ⟨r.normal, true, admission'⟩)) := by
  intro name other
  rw [values_guardedResponse _ other, values_guardedResponse _ other, same]

/-- A recording with its body gives the same fields after its way through the store, but for those of the guard and the
two that tell of a body that was left out on the way. -/
theorem Service.sameFields_of_whole {r : Recording} (whole : r.bodyOmitted = false) (admission admission' : Admission) :
    Http.SameFields (omissionField :: "content-type" :: guardFields) (guardedResponse (.ok ⟨r, false, admission⟩))
      (guardedResponse (.ok ⟨r.normal, true, admission'⟩)) := by
  intro name other
  simp only [List.mem_cons, not_or] at other
  obtain ⟨noMark, noType, other⟩ := other
  have noMark : name ≠ "idempotent-body-omitted" := noMark
  rw [values_guardedResponse _ other, values_guardedResponse _ other, Recording.values_respond,
    Recording.values_respond, r.fields_normal]
  simp [whole, noMark, noType]

/-- Where a body is left out the response says so, whatever the guard adds to it. -/
theorem Service.tells_omission {g : Guarded Recording} (omitted : g.result.bodyOmitted = true) :
    (guardedResponse (.ok g)).headers.values omissionField = [Http.octetsOf "true"] := by
  have unmarked : omissionField ∉ guardFields := by decide
  rw [values_guardedResponse _ unmarked, Recording.values_respond, omitted]
  rfl

/-- The replay of a recording that went through the store repeats the response that is made of the recording itself. The
way through the store leaves the normal form; so for a body that is kept, and for one that was never read, both
responses are made of the same recording, and for one that was too large they differ in the body and in the two fields
that go with it. -/
theorem repeats_of_captured {answer : Response} {r : Recording} (captured : Recording.capture answer = .ok r)
    (admission admission' : Admission) :
    Repeats answer (Service.guardedResponse (.ok ⟨r, false, admission⟩))
      (Service.guardedResponse (.ok ⟨r.normal, true, admission'⟩)) := by
  obtain ⟨-, recorded, status⟩ := Recording.captured captured
  have body := Recording.body_ofResponse answer
  rw [← recorded] at body
  constructor
  case status =>
    rw [Service.status_guardedResponse, Service.status_guardedResponse, r.status_normal]
    exact ⟨status, status⟩
  case kept =>
    intro octets read small
    rw [read] at body
    obtain ⟨rfl, whole⟩ := Prod.mk.inj body
    have same : r.normal = r := Recording.normal_of_small whole small
    refine ⟨Service.body_guardedResponse _, ?_, Service.sameFields_of_normal same _ _⟩
    rw [Service.body_guardedResponse, same]
  case large =>
    intro octets read large
    rw [read] at body
    obtain ⟨rfl, whole⟩ := Prod.mk.inj body
    have bare : r.normal = { r with body := .empty, bodyOmitted := true } := Recording.normal_of_large large
    have untyped : "content-type" ∉ guardFields := by decide
    refine ⟨Service.body_guardedResponse _, ?_, ?_, ?_, Service.sameFields_of_whole whole _ _⟩
    · rw [Service.body_guardedResponse, bare]
      rfl
    · exact Service.tells_omission (by rw [bare])
    · rw [Service.values_guardedResponse _ untyped, bare, Recording.values_respond]
      rfl
  case unread =>
    intro unread
    rw [unread] at body
    have same : r.normal = r := Recording.normal_of_unread body
    obtain ⟨empty, omitted⟩ := Prod.mk.inj body
    refine ⟨?_, ?_, Service.tells_omission omitted, Service.sameFields_of_normal same _ _⟩
    · rw [Service.body_guardedResponse, empty]
      rfl
    · rw [Service.body_guardedResponse, same, empty]
      rfl
  case connection =>
    intro sound name connection
    have apart : ∀ name ∈ connectionFields, name ∉ guardFields := by decide
    have other := apart name connection
    rw [Service.values_guardedResponse _ other, Service.values_guardedResponse _ other]
    constructor
    · exact Recording.values_connection sound (by rw [recorded]) connection
    · exact Recording.values_connection sound (r.fields_normal.trans (by rw [recorded])) connection

namespace Service

variable {α : Type}

/-- A caller got this response, and its request counts as one whose operation was executed. -/
def Executed (w : Requests α) (i : Nat) (response : Response) : Prop :=
  ∃ route throttled degraded, w.callers i = .done (response, some (route, .executed throttled degraded))

/-- A caller got this response, and its request counts as one that was replayed. -/
def Replayed (w : Requests α) (i : Nat) (response : Response) : Prop :=
  ∃ route throttled degraded, w.callers i = .done (response, some (route, .replayed throttled degraded))

/-- The operation of a caller's request answered this response. -/
def Gave (i : Nat) (answer : Response) (past : List (Note Response)) : Prop :=
  ∃ time, ⟨i, time, .worked answer⟩ ∈ past

/-- What a caller read from a key's record was what another one had stored, as the last result before. -/
def ReadFrom (k : String) (i j : Nat) (past : List (Note Response)) : Prop :=
  ∃ later time text earlier write, past = later ++ ⟨j, time, .called (.get (recordKey k)) (.ok (some text))⟩ :: earlier ∧
    lastResult? k earlier = some write ∧ write.caller = i ∧ write.text = text

/-- What counts as replayed is a result that the guard has marked so. -/
theorem replayed_of_ending {returned : Except Failure (Guarded Recording)} {throttled degraded : Bool}
    (is : Ending.of returned = .replayed throttled degraded) : ∃ g, returned = .ok g ∧ g.replayed = true := by
  unfold Ending.of at is
  split at is
  · rename_i g
    cases replayed : g.replayed with
    | true => exact ⟨g, rfl, replayed⟩
    | false =>
      rw [replayed] at is
      cases is
  all_goals cases is

/-- What counts as executed is a result without the mark. -/
theorem executed_of_ending {returned : Except Failure (Guarded Recording)} {throttled degraded : Bool}
    (is : Ending.of returned = .executed throttled degraded) : ∃ g, returned = .ok g ∧ g.replayed = false := by
  unfold Ending.of at is
  split at is
  · rename_i g
    cases replayed : g.replayed with
    | true =>
      rw [replayed] at is
      cases is
    | false => exact ⟨g, rfl, replayed⟩
  all_goals cases is

/-- The guard sees a recording only of a response that was captured as it. -/
theorem capture_of_seen {answer : Response} {r : Recording} (sees : seen answer = .ok r) :
    Recording.capture answer = .ok r := by
  unfold seen at sees
  cases captured : Recording.capture answer with
  | ok recording =>
    rw [captured] at sees
    exact congrArg Except.ok (Except.ok.inj sees)
  | error recording =>
    rw [captured] at sees
    cases sees

/-- What was stored for a recording is read and decoded as the recording without a body that can not be kept: the way
into the store, out of it and back to a recording has no other outcome. -/
theorem decoded_of_encoded {r recording : Recording} {value read : Value} (encoded : Codec.recording.encode r = .ok value)
    (reads : Record.read (Record.resolved value).text = .ok (.resolved read))
    (decoded : Codec.recording.decode read = .ok recording) : recording = r.normal := by
  obtain rfl : r.cached.sorted = value := Except.ok.inj encoded
  rw [r.read_stored] at reads
  cases reads
  exact (Except.ok.inj (r.ofValue_cached.symm.trans decoded)).symm

/-- What was read had been stored: the last result before the reading is among the writes of the whole past. -/
theorem ReadFrom.stored {k : String} {i j : Nat} {past : List (Note Response)} (from' : ReadFrom k i j past) :
    ∃ write ∈ writes k past, write.text ≠ Record.placeholder ∧ write.caller = i := by
  obtain ⟨later, time, text, earlier, write, parts, last, mine, -⟩ := from'
  obtain ⟨written, result⟩ := written_of_lastResult last parts
  exact ⟨write, written, result, mine⟩

section

variable [TokenNumber α] {k : String} {s : Service} {pattern : Nat → String} {request : Nat → Request} {w w' : Requests α}

/-- Every replay is made of what became in the store of a recording, which was the last result stored when it was read.
The caller that has stored it gets the response that is made of the recording itself. -/
theorem replayed_from_recording (callers : ∀ i, w.callers i = s.guarded (pattern i) (request i) (responding Attempt.wrapped))
    (distinct : w.store.entries.Distinct) (nobody : w.past = [])
    (pending : ∀ e text, w.store.live? w.now (recordKey k) = some e → e.text? = some text → text = Record.placeholder)
    (course : Crowd.Course k (fun move _ _ => move.StoresNone k) w w') {j : Nat} {again : Response}
    (presented : (s.invocation (pattern j) (request j)).key = some k) (replayed : Replayed w' j again) :
    ∃ i answer r admission, ReadFrom k i j w'.past ∧ Gave i answer w'.past ∧ Recording.capture answer = .ok r ∧
      again = guardedResponse (.ok ⟨r.normal, true, admission⟩) ∧
        ∀ first count, w'.callers i = .done (first, count) →
          Executed w' i first ∧ ∃ admission', first = guardedResponse (.ok ⟨r, false, admission'⟩) := by
  obtain ⟨programs, made, onward⟩ : ∃ programs, w'.MadeOf seen (fun i => delivered (pattern i) (request i)) programs ∧
      Crowd.Course k (fun move _ _ => move.StoresNone k)
        (w.behind seen fun i => (passages s pattern request i).program s.guard) (w'.behind seen programs) :=
    passages_course (fun _ _ _ spares => storesNone_through spares) callers course
  obtain ⟨route, throttled, degraded, done⟩ := replayed
  obtain ⟨returned, finished, rfl, counted⟩ := returned_of_delivered made done
  obtain ⟨⟨result, _, admission⟩, rfl, rfl⟩ := replayed_of_ending (Prod.mk.inj (Option.some.inj counted)).2.symm
  have untouched : (w.behind seen fun i => (passages s pattern request i).program s.guard).past = [] := by
    simp [Crowd.behind, nobody]
  obtain ⟨later, time, text, earlier, write, parts, last, same, given, value, read, ⟨time', gave⟩, encoded, is, reads,
    decoded, own⟩ := source_of_replayed s.guard (fun _ => rfl) distinct untouched pending onward presented finished rfl
  obtain ⟨answer, answered, sees⟩ := given_of_seen gave
  obtain ⟨later', earlier', all, before⟩ := called_of_seen parts
  obtain rfl : result = given.normal := decoded_of_encoded encoded (is ▸ reads) decoded
  refine ⟨write.caller, answer, given, admission, ⟨later', time, text, earlier', write, all, ?_, rfl, same⟩,
    ⟨time', answered⟩, capture_of_seen sees, rfl, fun first count ended => ?_⟩
  · rw [← last, before, lastResult?_through]
  · obtain ⟨returned, finished', rfl, counts⟩ := returned_of_delivered made ended
    obtain ⟨⟨result, _, admission'⟩, rfl, rfl, rfl⟩ := own returned finished'
    exact ⟨⟨_, _, _, ended.trans (by rw [counts]; rfl)⟩, admission', rfl⟩

/-- Every replay repeats the response of the caller whose result was the last one stored when it was read. If that
caller has been answered, then from the recording itself, so this is the recording's way through the store. -/
theorem replayed_from_first (callers : ∀ i, w.callers i = s.guarded (pattern i) (request i) (responding Attempt.wrapped))
    (distinct : w.store.entries.Distinct) (nobody : w.past = [])
    (pending : ∀ e text, w.store.live? w.now (recordKey k) = some e → e.text? = some text → text = Record.placeholder)
    (course : Crowd.Course k (fun move _ _ => move.StoresNone k) w w') {j : Nat} {again : Response}
    (presented : (s.invocation (pattern j) (request j)).key = some k) (replayed : Replayed w' j again) :
    ∃ i answer, ReadFrom k i j w'.past ∧ Gave i answer w'.past ∧ Http.isSuccess answer.status = true ∧
      ∀ first count, w'.callers i = .done (first, count) → Executed w' i first ∧ Repeats answer first again := by
  obtain ⟨i, answer, r, admission, from', gave, captured, rfl, own⟩ :=
    replayed_from_recording callers distinct nobody pending course presented replayed
  refine ⟨i, answer, from', gave, (Recording.captured captured).1, fun first count ended => ?_⟩
  obtain ⟨executed, admission', rfl⟩ := own first count ended
  exact ⟨executed, repeats_of_captured captured admission' admission⟩

/-- Guarded requests come in any number and take their steps in any order, their operations may answer anything, calls
may fail and locks and records may run out; others may issue and evict keys, but do not store results. Then every replay
repeats the response of a caller whose operation succeeded and whose result was the last one stored for the key when the
replay was read: if that caller has got its response, it counts as executed, and status, fields and body are repeated
but for a body that was too large to be kept. When one caller alone has stored results for the key, all replays repeat
that caller's response. -/
theorem replays_repeat_the_first_response
    (callers : ∀ i, w.callers i = s.guarded (pattern i) (request i) (responding Attempt.wrapped))
    (distinct : w.store.entries.Distinct) (nobody : w.past = [])
    (pending : ∀ e text, w.store.live? w.now (recordKey k) = some e → e.text? = some text → text = Record.placeholder)
    (course : Crowd.Course k (fun move _ _ => move.StoresNone k) w w') :
    (∀ j again, (s.invocation (pattern j) (request j)).key = some k → Replayed w' j again →
      ∃ i answer, ReadFrom k i j w'.past ∧ Gave i answer w'.past ∧ Http.isSuccess answer.status = true ∧
        ∀ first count, w'.callers i = .done (first, count) → Executed w' i first ∧ Repeats answer first again) ∧
      ∀ i j first again, (∀ write ∈ writes k w'.past, write.text ≠ Record.placeholder → write.caller = i) →
        (s.invocation (pattern j) (request j)).key = some k → Executed w' i first → Replayed w' j again →
          ∃ answer, Gave i answer w'.past ∧ Http.isSuccess answer.status = true ∧ Repeats answer first again := by
  constructor
  · intro j again presented replayed
    exact replayed_from_first callers distinct nobody pending course presented replayed
  · rintro i j first again alone presented ⟨route, throttled, degraded, done⟩ replayed
    obtain ⟨i', answer, from', gave, success, repeats⟩ :=
      replayed_from_first callers distinct nobody pending course presented replayed
    obtain ⟨write, written, result, mine⟩ := from'.stored
    obtain rfl : i' = i := mine.symm.trans (alone write written result)
    exact ⟨answer, gave, success, (repeats first _ done).2⟩

end

/-- A service with one route, whose clients bring their keys. -/
def paymentService : Service := ⟨briefGuard, ⟨textVisit.policy, .empty⟩, false, "memory"⟩

/-- A request that presents a key. -/
def order : Request :=
  ⟨"POST", ⟨"/api/payments", ""⟩, ⟨[⟨"idempotency-key", Http.octetsOf "order-1"⟩]⟩, .empty, none⟩

/-- The request presents the key of its field. -/
theorem order_presents : (paymentService.invocation "/api/payments" order).key = some "order-1" := by
  decide +kernel

/-- The same request again and again. -/
def orderRequests : Requests Binary64 :=
  .atEmptyStore fun _ => paymentService.guarded "/api/payments" order (responding Attempt.wrapped)

/-- A response with fields of one name, a field of the connection, and a body that is not text. -/
def accepted : Response where
  status := 201
  headers := ⟨[⟨"set-cookie", Http.octetsOf "a=1"⟩, ⟨"connection", Http.octetsOf "close"⟩,
    ⟨"set-cookie", Http.octetsOf "b=2"⟩]⟩
  body := .whole ⟨#[111, 107, 255]⟩

/-- The first request is answered, the second one finds its result. -/
def orderedTwice (answer : Response) : List (Cue Response) :=
  [.call 0, .call 0, .call 0, .name 0 "a", .call 0, .call 0, .work 0 answer, .call 0, .call 0, .call 1, .call 1]

/-- How a request counts, once it has been answered. -/
def ending? : Program Response (Response × Option (String × Ending)) → Option Ending
  | .done (_, some (_, ending)) => some ending
  | _ => none

/-- A request that counts has been answered. -/
theorem done_of_ending {p : Program Response (Response × Option (String × Ending))} {ending : Ending}
    (is : ending? p = some ending) : ∃ response route, p = .done (response, some (route, ending)) := by
  unfold ending? at is
  split at is
  · cases is
    exact ⟨_, _, rfl⟩
  · cases is

/-- Nobody but the first request stores a result: the run ends with one request executed and one replayed, and all
writes but placeholders are the first one's. -/
theorem played_orderedTwice :
    ∃ w', orderRequests.play "order-1" (fun move _ _ => decide (move.StoresNone "order-1")) (orderedTwice accepted) =
        some w' ∧
      Crowd.Course "order-1" (fun move _ _ => move.StoresNone "order-1") orderRequests w' ∧
        (∃ first, Executed w' 0 first) ∧ (∃ again, Replayed w' 1 again) ∧
          ∀ write ∈ writes "order-1" w'.past, write.text ≠ Record.placeholder → write.caller = 0 := by
  have played : (orderRequests.play "order-1" (fun move _ _ => decide (move.StoresNone "order-1"))
      (orderedTwice accepted)).map (fun w => (ending? (w.callers 0), ending? (w.callers 1),
        (writes "order-1" w.past).all fun write => write.text = Record.placeholder || write.caller = 0)) =
      some (some (.executed false false), some (.replayed false false), true) := by decide +kernel
  obtain ⟨w', is, shown⟩ := Option.map_eq_some_iff.mp played
  obtain ⟨ended, shown⟩ := Prod.mk.inj shown
  obtain ⟨ended', alone⟩ := Prod.mk.inj shown
  obtain ⟨first, route, done⟩ := done_of_ending ended
  obtain ⟨again, route', done'⟩ := done_of_ending ended'
  refine ⟨w', is, Crowd.course_of_play (fun _ _ _ => of_decide_eq_true) is, ⟨first, _, _, _, done⟩, ⟨again, _, _, _, done'⟩, ?_⟩
  intro write written result
  have mine := List.all_eq_true.mp alone write written
  simpa [result] using mine

/-- The second order gets what the first one got: two cookies in their order, the octets that are no text, and the
status. -/
theorem replays_repeat_the_first_response_orderedTwice :
    ∃ w', orderRequests.play "order-1" (fun move _ _ => decide (move.StoresNone "order-1")) (orderedTwice accepted) =
        some w' ∧
      ∃ answer first again, Gave 0 answer w'.past ∧ Executed w' 0 first ∧ Replayed w' 1 again ∧
        Repeats answer first again := by
  obtain ⟨w', is, course, ⟨first, executed⟩, ⟨again, replayed⟩, alone⟩ := played_orderedTwice
  obtain ⟨-, repeats⟩ := replays_repeat_the_first_response (fun _ => rfl) Table.distinct_empty rfl
    (fun e text there => by cases there) course
  obtain ⟨answer, gave, -, repeated⟩ := repeats 0 1 first again alone order_presents executed replayed
  exact ⟨w', is, answer, first, again, gave, executed, replayed, repeated⟩

end Service

end Turnstile
