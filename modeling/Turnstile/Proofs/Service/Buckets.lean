import Turnstile.Proofs.Crowd.Play
import Turnstile.Proofs.Crowd.Trace
import Turnstile.Proofs.Key
import Turnstile.Proofs.Key.Segments
import Turnstile.Proofs.Service.Asks

/-!
Every bucket is under one limit.

The key of a bucket names the client and the route in their normal forms, and the table of policies is read by the normal
form of the route, so requests that are charged to one bucket are under one policy. Whatever requests a service is asked,
in whatever order their calls come to the store, the bucket of a client on a route is touched only by takes under the limit
of that route: nothing else that a service keeps is at the key of a bucket.
-/

namespace Turnstile

variable {ω β : Type} {allowed : Call → Prop}

/-- What stays within some calls has made no others, whatever it was answered. Each step on the way is one that the
program has and what is left stays within the same calls; a call that broke is within them as well, and the last one. -/
theorem Program.StaysWithin.asksOnly {p : Program ω β} (within : p.StaysWithin allowed) : p.AsksOnly allowed := by
  intro deeds q leads deed done c is
  induction leads with
  | start => cases done
  | answered held c' next reply deeds q _ inductionHypothesis =>
    rcases List.mem_cons.mp done with rfl | later
    · cases is
      exact within.1
    · exact inductionHypothesis (within.2 reply) later
  | broke held c' next why =>
    rw [List.mem_singleton.mp done] at is
    cases is
    exact within.1
  | named next name deeds q _ inductionHypothesis =>
    rcases List.mem_cons.mp done with rfl | later
    · cases is
    · exact inductionHypothesis (within name) later
  | worked held next answer deeds q _ inductionHypothesis =>
    rcases List.mem_cons.mp done with rfl | later
    · cases is
    · exact inductionHypothesis (within answer) later

/-- Along every course, all calls are those that the callers may ask for. A note in the past belongs to one caller, and
is a deed on the way from that caller's program to what is left of it. -/
theorem Crowd.Course.asks [TokenNumber α] {k : String} {fair : Move ω → Scene α ω → Scene α ω → Prop}
    {w w' : Crowd α ω β} (course : Course k fair w w') (nobody : w.past = [])
    (within : ∀ i, (w.callers i).StaysWithin allowed) {note : Note ω} (noted : note ∈ w'.past) {c : Call}
    (called : note.deed.call? = some c) : allowed c :=
  (within note.caller).asksOnly _ _ (course.leadsTo nobody note.caller) note.deed
    (mem_deedsOf.mpr ⟨note.time, noted⟩) c called

namespace Service

/-- What is taken is taken from the bucket of a client on a route, under the limit of the route. A take is none of the
calls on records and locks. -/
theorem Asks.of_take {service : Service} {key : String} {limit : Limit} {cost : UInt32}
    (asks : service.Asks (.take key limit cost)) :
    ∃ client path method, key = (BucketKey.of client path method).text ∧
      limit = (service.policies.resolve path method).limit := by
  cases asks with
  | take client path method => exact ⟨client, path, method, rfl, rfl⟩
  | record c asks => cases asks
  | lock path method idempotent c asks => cases asks

/-- The bucket of a client on a route is touched only by takes under the limit of the route. The keys of records and
locks start otherwise, and of two routes with the same bucket key the table gives the same policy. -/
theorem Asks.at_bucket {service : Service} {c : Call} (asks : service.Asks c) {client path method : String}
    (touched : c.key? = some (BucketKey.of client path method).text) :
    ∃ cost, c = .take (BucketKey.of client path method).text (service.policies.resolve path method).limit cost := by
  cases asks with
  | take client' path' method' cost =>
    have same : BucketKey.of client' path' method' = BucketKey.of client path method :=
      congrArg BucketKey.mk (Option.some.inj touched)
    rw [same, service.policies.resolve_eq same]
    exact ⟨cost, rfl⟩
  | record c asks =>
    cases asks <;> exact absurd (Option.some.inj touched).symm (bucketKey_ne_recordKey _ _ _ _)
  | lock path' method' idempotent c asks =>
    cases asks <;> exact absurd (Option.some.inj touched).symm (bucketKey_ne_lockKey _ _ _ _)
  | ping => cases touched

end Service

/-- A form that texts are brought into to stand in a key: it is kept once it is reached, and it is never empty and has no
characters but these. -/
structure IsSegmentForm (form : String → String) : Prop where
  kept : ∀ s, form (form s) = form s
  nonempty : ∀ s, form s ≠ ""
  chars : ∀ s, ∀ c ∈ (form s).toList, c.isAlphanum = true ∨ c = '.' ∨ c = '_' ∨ c = '-'

/-- What makes a segment of every text makes a form, if it keeps the segments that it has made. That it is never empty
and which characters it has are facts about segments. -/
theorem IsSegmentForm.of_segment {form : String → String} (made : ∀ s, ∃ inner, form s = segment inner)
    (kept : ∀ s, form (form s) = form s) : IsSegmentForm form where
  kept
  nonempty s := by
    obtain ⟨inner, is⟩ := made s
    rw [is]
    exact segment_ne_empty inner
  chars s c here := by
    obtain ⟨inner, is⟩ := made s
    rw [is] at here
    simpa only [isSegmentChar, Bool.or_eq_true, beq_iff_eq, or_assoc] using segment_chars inner c here

/-- Two bucket keys are the same exactly if they are of the same client, endpoint and method, each in its normal form. Then
they are under one policy, whatever the table of policies. So, whatever requests a service is asked and in whatever order
their calls come to the store: where something has been taken from a bucket under a limit, everything else that was ever
called on the key of that bucket was to take under the same limit. -/
theorem bucket_keys_name_policies :
    (∀ client path method client' path' method',
      BucketKey.of client path method = BucketKey.of client' path' method' ↔
        segment client = segment client' ∧ endpointSegment path = endpointSegment path' ∧
          methodSegment method = methodSegment method') ∧
    (∀ (t : Policies) client path method client' path' method',
      BucketKey.of client path method = BucketKey.of client' path' method' →
        t.resolve path method = t.resolve path' method') ∧
    (∀ (service : Service) (site : Http.Site Service.Action) (k : String)
        (w w' : Crowd Binary64 Http.Response (Http.Response × Option (String × Ending))),
      (∀ i, ∃ view r, w.callers i = service.answer site view r) → w.past = [] →
        Crowd.Course k (fun _ _ _ => True) w w' →
          ∀ note ∈ w'.past, ∀ key limit cost, note.deed.call? = some (.take key limit cost) →
            ∀ note' ∈ w'.past, ∀ c, note'.deed.call? = some c → c.key? = some key →
              ∃ cost', c = .take key limit cost') ∧
    IsSegmentForm endpointSegment ∧ IsSegmentForm methodSegment := by
  refine ⟨fun _ _ _ _ _ _ => BucketKey.of_eq_iff, fun t _ _ _ _ _ _ same => t.resolve_eq same, ?_, ?_, ?_⟩
  · intro service site k w w' callers nobody course note noted key limit cost took note' noted' c called touched
    have within (i : Nat) : (w.callers i).StaysWithin service.Asks := by
      obtain ⟨view, r, is⟩ := callers i
      rw [is]
      exact service.answer_asks site view r
    obtain ⟨client, path, method, rfl, rfl⟩ := (course.asks nobody within noted took).of_take
    exact (course.asks nobody within noted' called).at_bucket touched
  · exact .of_segment (fun _ => ⟨_, rfl⟩) endpointSegment_endpointSegment
  · exact .of_segment (fun _ => ⟨_, rfl⟩) methodSegment_methodSegment

/-- A service where one route has a policy of its own. -/
def tariffService : Service where
  guard := Settings.usual.guard
  policies :=
    ⟨Settings.usual.policy, Table.empty.insert (.of "/api/payments" "POST") { Settings.usual.policy with cost := 2 }⟩
  trustHeaders := false
  backend := "memory"

/-- A request for the state of the limit that a query names. -/
def limitRequest (query : String) : Http.Request := ⟨"GET", ⟨"/api/rate-limit", query⟩, ⟨[]⟩, .empty, none⟩

/-- The first caller spells the route as the table does, the others do not. -/
def spellings : Crowd Binary64 Http.Response (Http.Response × Option (String × Ending)) :=
  .atEmptyStore fun i => tariffService.answer Service.site ⟨0, 0, .empty⟩
    (limitRequest (if i = 0 then "path=/api/payments&method=POST" else "path=api//payments/&method=post"))

/-- Two spellings of one route by one client. Both requests take from the same bucket, under the same limit. -/
theorem bucket_keys_name_policies_spellings :
    BucketKey.of "::1" "/api/payments" "POST" = BucketKey.of " __1" "api//payments/" "post" ∧
    tariffService.policies.resolve "/api/payments" "POST" = tariffService.policies.resolve "api//payments/" "post" ∧
    ∃ w', spellings.play "" (fun _ _ _ => true) [.call 0, .call 1] = some w' ∧
      ∃ first second, w'.past = [second, first] ∧ first.caller = 0 ∧ second.caller = 1 ∧
        ∃ key limit cost cost', first.deed.call? = some (.take key limit cost) ∧
          second.deed.call? = some (.take key limit cost') := by
  obtain ⟨told, resolves, driven, -⟩ := bucket_keys_name_policies
  have same : BucketKey.of "::1" "/api/payments" "POST" = BucketKey.of " __1" "api//payments/" "post" :=
    (told _ _ _ _ _ _).mpr (by decide +kernel)
  refine ⟨same, resolves _ _ _ _ _ _ _ same, ?_⟩
  have played : (spellings.play "" (fun _ _ _ => true) [.call 0, .call 1]).map (fun w => w.past.map fun note =>
      (note.caller, note.deed.call?.bind Call.key?)) =
      some [(1, some (BucketKey.of "unknown" "/api/payments" "POST").text),
        (0, some (BucketKey.of "unknown" "/api/payments" "POST").text)] := by decide +kernel
  obtain ⟨w', is, shown⟩ := Option.map_eq_some_iff.mp played
  have course := Crowd.course_of_play (fun _ _ _ _ => trivial) is
  obtain ⟨second, others, past, late, shown⟩ := List.map_eq_cons_iff.mp shown
  obtain ⟨first, none, rfl, early, nothing⟩ := List.map_eq_cons_iff.mp shown
  obtain rfl := List.map_eq_nil_iff.mp nothing
  obtain ⟨mine, touched⟩ := Prod.mk.inj early
  obtain ⟨other, touched'⟩ := Prod.mk.inj late
  obtain ⟨c, called, touches⟩ := Option.bind_eq_some_iff.mp touched
  obtain ⟨c', called', touches'⟩ := Option.bind_eq_some_iff.mp touched'
  have noted : first ∈ w'.past := by simp [past]
  have noted' : second ∈ w'.past := by simp [past]
  obtain ⟨cost, rfl⟩ := (course.asks rfl (fun i => tariffService.answer_asks ..) noted called).at_bucket touches
  obtain ⟨cost', rfl⟩ := driven tariffService Service.site "" _ w' (fun i => ⟨_, _, rfl⟩) rfl course first noted _ _ _ called
    second noted' c' called' touches'
  exact ⟨w', is, first, second, past, mine, other, _, _, cost, cost', called, called'⟩

end Turnstile
