import Turnstile.Proofs.Service.Replay

/-!
What becomes of the fields of an operation's response behind the guard.

A field is carried on if its value shows as text and its name does not belong to the connection. The caller whose
operation answered gets these fields if the operation's response is what its request ends with: always where there is no
success or nothing is kept, and where the result is kept if the request counts as executed. Replays carry the fields of
the response they go back to. A value with an octet beyond ASCII has no text in a recording, so its field is in neither.
-/

namespace Turnstile

open Http (Headers Request Response)

/-- The values of the fields of one name that are carried on, in their order. -/
def Http.Headers.carried (h : Headers) (name : String) : List (List UInt8) :=
  if name ∈ connectionFields then [] else (h.values name).filter (·.all Http.isTextOctet)

/-- The body can be read and is not too large to be kept. -/
def Http.Response.IsSmall (answer : Response) : Prop :=
  ∃ octets, answer.body.octets? maxReadBody = some octets ∧ octets.size ≤ maxCachedBody

/-- A response has, of each name that the guard does not set, the values of the answer that are carried on. -/
def Carries (answer delivered : Response) : Prop :=
  ∀ name ∉ guardFields, delivered.headers.values name = answer.headers.carried name

namespace Recording

variable {answer : Response}

/-- A response that is made of a recording with its body carries the fields of the recorded response. With the body in
place, its type is left and no field is set to tell that it is missing. -/
theorem carries_respond (sound : answer.headers.Sound) (small : answer.IsSmall) :
    Carries answer (ofResponse answer).respond := by
  obtain ⟨octets, read, -⟩ := small
  have body := body_ofResponse answer
  rw [read] at body
  intro name _
  rw [values_respond, (Prod.mk.inj body).2]
  exact values_fields sound name

/-- A recorded response with a small body stays as it is on its way through the store: the body was read, and it is not
too large to be kept. -/
theorem normal_ofResponse (small : answer.IsSmall) : (ofResponse answer).normal = ofResponse answer := by
  obtain ⟨octets, read, size⟩ := small
  have body := body_ofResponse answer
  rw [read] at body
  obtain ⟨rfl, whole⟩ := Prod.mk.inj body
  exact normal_of_small whole size

end Recording

namespace Service

variable {α : Type}

/-- What the guard sets beside the fields of a recorded response takes none of them away, whether it is the first
response or a replay. -/
theorem carries_guardedResponse {answer : Response} (sound : answer.headers.Sound) (small : answer.IsSmall)
    (replayed : Bool) (admission : Admission) :
    Carries answer (guardedResponse (.ok ⟨.ofResponse answer, replayed, admission⟩)) := by
  intro name other
  rw [values_guardedResponse _ other]
  exact Recording.carries_respond sound small name other

/-- The guard sees a response of success as its recording. -/
theorem seen_of_success {answer : Response} (success : Http.isSuccess answer.status = true) :
    seen answer = .ok (.ofResponse answer) := by
  unfold seen Recording.capture
  rw [if_pos success]
  rfl

/-- And it sees any other as a failure that has the recording. -/
theorem seen_of_failure {answer : Response} (failure : Http.isSuccess answer.status = false) :
    seen answer = .error (.unsuccessful (.ofResponse answer)) := by
  unfold seen Recording.capture
  rw [if_neg (by simp [failure])]
  rfl

section

variable [TokenNumber α] {k : String} {s : Service} {pattern : Nat → String} {request : Nat → Request} {w w' : Requests α}
  {fair : Move Response → Scene α Response → Scene α Response → Prop}

/-- The operation's response is what the request ends with: it is no success, or its result is not kept, or the request
counts as executed. -/
def PassesOn (s : Service) (pattern : Nat → String) (request : Nat → Request) (w : Requests α) (i : Nat)
    (answer first : Response) : Prop :=
  Http.isSuccess answer.status = true → (s.invocation (pattern i) (request i)).policy.origin ≠ none → Executed w i first

/-- A request that ends with its operation's response delivers what is made of its recording, as it is if the response is
no success, and with the marks of the admission otherwise. -/
theorem delivered_of_gave (callers : ∀ i, w.callers i = s.guarded (pattern i) (request i) (responding Attempt.wrapped))
    (nobody : w.past = []) (course : Crowd.Course k fair w w') {i : Nat} {answer first : Response}
    {count : Option (String × Ending)} (gave : Gave i answer w'.past) (done : w'.callers i = .done (first, count))
    (passes : PassesOn s pattern request w' i answer first) :
    first = (Recording.ofResponse answer).respond ∨
      ∃ admission, first = guardedResponse (.ok ⟨.ofResponse answer, false, admission⟩) := by
  obtain ⟨programs, made, onward⟩ : ∃ programs, w'.MadeOf seen (fun i => delivered (pattern i) (request i)) programs ∧
      Crowd.Course k (fun _ _ _ => True)
        (w.behind seen fun i => (passages s pattern request i).program s.guard) (w'.behind seen programs) :=
    passages_course (fun _ _ _ _ => trivial) callers course
  have untouched : (w.behind seen fun i => (passages s pattern request i).program s.guard).past = [] := by
    simp [Crowd.behind, nobody]
  obtain ⟨returned, finished, rfl, counted⟩ := returned_of_delivered made done
  have leads : ((passages s pattern request i).program s.guard).LeadsTo (Crowd.deedsOf i (w'.behind seen programs).past)
      (.done returned) := finished ▸ onward.leadsTo untouched i
  have tells := returned_passage leads
  obtain ⟨time, noted⟩ := gave
  have worked : .worked (seen answer) ∈ Crowd.deedsOf i (w'.behind seen programs).past :=
    Crowd.mem_deedsOf.mpr ⟨time, List.mem_map.mpr ⟨_, noted, rfl⟩⟩
  cases success : Http.isSuccess answer.status with
  | false =>
    rw [seen_of_failure success] at worked
    obtain rfl := tells.failed _ worked
    exact .inl rfl
  | true =>
    rw [seen_of_success success] at worked
    obtain ⟨⟨result, _, admission⟩, rfl, rfl⟩ : ∃ g, returned = .ok g ∧ g.replayed = false := by
      by_cases plain : (s.invocation (pattern i) (request i)).policy.origin = none
      · exact tells.plain plain _ worked
      · obtain ⟨route, throttled, degraded, done'⟩ := passes success plain
        have same := (Prod.mk.inj (Program.done.inj (done.symm.trans done'))).2
        rw [counted] at same
        exact executed_of_ending (Prod.mk.inj (Option.some.inj same)).2
    have same := (gated_of_leadsTo leads).answer_unique (tells.own _ rfl rfl) worked
    cases same
    exact .inr ⟨admission, rfl⟩

/-- Guarded requests come in any number and take their steps in any order, and their operations may answer anything. A
caller whose request ends with its operation's response gets, of each name that the guard does not set, the values that
show as text, unchanged and in their order, but for the names of the connection. As long as others do not store results,
every replay carries in the same way the fields of the response whose result was the last one stored when it was read. -/
theorem fields_are_carried_as_far_as_text
    (callers : ∀ i, w.callers i = s.guarded (pattern i) (request i) (responding Attempt.wrapped)) (nobody : w.past = [])
    (course : Crowd.Course k fair w w') :
    (∀ i answer first count, Gave i answer w'.past → w'.callers i = .done (first, count) →
      PassesOn s pattern request w' i answer first → answer.headers.Sound → answer.IsSmall → Carries answer first) ∧
    ((∀ move v v', fair move v v' → move.StoresNone k) → w.store.entries.Distinct →
      (∀ e text, w.store.live? w.now (recordKey k) = some e → e.text? = some text → text = Record.placeholder) →
        ∀ j again, (s.invocation (pattern j) (request j)).key = some k → Replayed w' j again →
          ∃ i answer, ReadFrom k i j w'.past ∧ Gave i answer w'.past ∧ Http.isSuccess answer.status = true ∧
            (answer.headers.Sound → answer.IsSmall → Carries answer again)) := by
  constructor
  · intro i answer first count gave done passes sound small
    obtain rfl | ⟨admission, rfl⟩ := delivered_of_gave callers nobody course gave done passes
    · exact Recording.carries_respond sound small
    · exact carries_guardedResponse sound small false admission
  · intro spares distinct pending j again presented replayed
    obtain ⟨i, answer, r, admission, from', gave, captured, rfl, -⟩ :=
      replayed_from_recording callers distinct nobody pending (course.imp (spares _ _ _)) presented replayed
    obtain ⟨success, rfl, -⟩ := Recording.captured captured
    refine ⟨i, answer, from', gave, success, fun sound small => ?_⟩
    rw [Recording.normal_ofResponse small]
    exact carries_guardedResponse sound small true admission

end

/-- The first response and its replay carry both cookies, and neither carries the field of the connection. -/
theorem fields_are_carried_as_far_as_text_orderedTwice :
    ∃ w', orderRequests.play "order-1" (fun move _ _ => decide (move.StoresNone "order-1")) (orderedTwice accepted) =
        some w' ∧
      ∃ first again, Executed w' 0 first ∧ Carries accepted first ∧ Replayed w' 1 again ∧ Carries accepted again := by
  obtain ⟨w', is, course, ⟨first, executed⟩, ⟨again, replayed⟩, -⟩ := played_orderedTwice
  obtain ⟨route, throttled, degraded, done⟩ := executed
  have sound : accepted.headers.Sound := by decide +kernel
  have small : accepted.IsSmall := ⟨_, rfl, by decide⟩
  have gave : Gave 0 accepted w'.past := (Crowd.worked_of_play is).mpr (.inr (by simp [orderedTwice]))
  obtain ⟨own, replays⟩ := fields_are_carried_as_far_as_text (fun _ => rfl) rfl course
  have carries : Carries accepted first := own 0 accepted first _ gave done (fun _ _ => ⟨_, _, _, done⟩) sound small
  obtain ⟨i, answer, -, gave', -, carries'⟩ := replays (fun _ _ _ spares => spares) Table.distinct_empty
    (fun e text there => by cases there) 1 again order_presents replayed
  obtain rfl : answer = accepted := by
    have cue := ((Crowd.worked_of_play is).mp gave').resolve_left (by simp [orderRequests, Crowd.atEmptyStore])
    simp only [orderedTwice, List.mem_cons, reduceCtorEq, Cue.work.injEq, false_or, List.not_mem_nil, or_false] at cue
    exact cue.2
  exact ⟨w', is, first, again, ⟨_, _, _, done⟩, carries, replayed, carries' sound small⟩

/-- A response with a value that is not ASCII. -/
def accented : Response where
  status := 200
  headers := ⟨[⟨"x-name", [99, 97, 102, 233]⟩]⟩
  body := .ofText "ok"

/-- The operation has answered, and its result can not be stored. -/
def orderedInVain : List (Cue Response) :=
  [.call 0, .call 0, .call 0, .name 0 "a", .call 0, .call 0, .work 0 accepted, .fail 0 (.storeUnavailable "away"), .call 0]

/-- How a request counts, once it has been answered, and the values of a name in the response. -/
def delivered? (name : String) : Program Response (Response × Option (String × Ending)) →
    Option (Ending × List (List UInt8))
  | .done (response, some (_, ending)) => some (ending, response.headers.values name)
  | _ => none

/-- A request that counts and shows these values has been answered, with a response that has them. -/
theorem done_of_delivered {p : Program Response (Response × Option (String × Ending))} {name : String} {ending : Ending}
    {values : List (List UInt8)} (is : delivered? name p = some (ending, values)) :
    ∃ response route, p = .done (response, some (route, ending)) ∧ response.headers.values name = values := by
  unfold delivered? at is
  split at is
  · obtain ⟨rfl, rfl⟩ := Prod.mk.inj (Option.some.inj is)
    exact ⟨_, _, rfl, rfl⟩
  · cases is

/-- A value that is not ASCII is in neither response, and a response of success whose result can not be stored is not
delivered at all. -/
theorem fields_are_not_all_carried :
    (∃ w', orderRequests.play "order-1" (fun _ _ _ => true) (orderedTwice accented) = some w' ∧
      ∃ first again, Gave 0 accented w'.past ∧ Executed w' 0 first ∧ Replayed w' 1 again ∧
        accented.headers.Sound ∧ accented.IsSmall ∧ "x-name" ∉ connectionFields ∧ "x-name" ∉ omissionField :: guardFields ∧
          accented.headers.values "x-name" = [[99, 97, 102, 233]] ∧
            first.headers.values "x-name" = [] ∧ again.headers.values "x-name" = []) ∧
      ∃ w', orderRequests.play "order-1" (fun _ _ _ => true) orderedInVain = some w' ∧
        ∃ first count, Gave 0 accepted w'.past ∧ w'.callers 0 = .done (first, count) ∧
          accepted.headers.Sound ∧ accepted.IsSmall ∧
            accepted.headers.values "set-cookie" = [Http.octetsOf "a=1", Http.octetsOf "b=2"] ∧
              first.headers.values "set-cookie" = [] := by
  constructor
  · have played : (orderRequests.play "order-1" (fun _ _ _ => true) (orderedTwice accented)).map
        (fun w => (delivered? "x-name" (w.callers 0), delivered? "x-name" (w.callers 1))) =
          some (some (.executed false false, []), some (.replayed false false, [])) := by decide +kernel
    obtain ⟨w', is, shown⟩ := Option.map_eq_some_iff.mp played
    obtain ⟨ended, ended'⟩ := Prod.mk.inj shown
    obtain ⟨first, route, done, lost⟩ := done_of_delivered ended
    obtain ⟨again, route', done', lost'⟩ := done_of_delivered ended'
    have gave : Gave 0 accented w'.past := (Crowd.worked_of_play is).mpr (.inr (by simp [orderedTwice]))
    have sound : accented.headers.Sound := by decide +kernel
    exact ⟨w', is, first, again, gave, ⟨_, _, _, done⟩, ⟨_, _, _, done'⟩, sound, ⟨_, rfl, by decide⟩, by decide, by decide,
      rfl, lost, lost'⟩
  · have played : (orderRequests.play "order-1" (fun _ _ _ => true) orderedInVain).map
        (fun w => delivered? "set-cookie" (w.callers 0)) = some (some (.failed, [])) := by decide +kernel
    obtain ⟨w', is, ended⟩ := Option.map_eq_some_iff.mp played
    obtain ⟨first, route, done, lost⟩ := done_of_delivered ended
    have gave : Gave 0 accepted w'.past := (Crowd.worked_of_play is).mpr (.inr (by simp [orderedInVain]))
    have sound : accepted.headers.Sound := by decide +kernel
    exact ⟨w', is, first, _, gave, done, sound, ⟨_, rfl, by decide⟩, rfl, lost⟩

end Service

end Turnstile
