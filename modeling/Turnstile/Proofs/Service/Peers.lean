import Turnstile.Proofs.Address
import Turnstile.Proofs.Service.Buckets

/-!
Every peer has buckets of its own.

Where forwarding headers are not trusted, a client is named by the address at the other end of the connection, or as unknown.
Of such a name a segment loses the colons only, and an underscore can be nothing else than a colon that was lost. So the
segment tells the name, the name tells the address, and requests are charged to one bucket exactly if they come from one
address and are for one endpoint and method. Neither headers nor ports matter, and no call that a service makes for one
peer touches a bucket that it has taken from for another.
-/

namespace Turnstile

open Http (Request Response)

/-- Colons for the underscores of a text. -/
def withColons (s : String) : List Char := s.toList.map fun c => if c = '_' then ':' else c

/-- Characters of which a segment loses the colons only. -/
def KeepsApart (c : Char) : Prop := (isSegmentChar c = true ∧ c ≠ '_') ∨ c = ':'

/-- A text of such characters is told by its segment. It has no blanks that would be cut off, and of its characters only
the colons become underscores, of which it has none itself. -/
theorem withColons_segment {s : String} (some : s ≠ "") (apart : ∀ c ∈ s.toList, KeepsApart c) :
    withColons (segment s) = s.toList := by
  have trimmed : Text.trimChars s.toList = s.toList := by
    apply Text.trimChars_of_unblank
    intro c here
    rcases apart c here with ⟨stands, -⟩ | rfl
    · exact isBlank_of_segmentChar stands
    · rfl
  have restored : ∀ c ∈ s.toList,
      (fun c => if c = '_' then ':' else c) (if isSegmentChar c = true then c else '_') = c := by
    intro c here
    rcases apart c here with ⟨stands, other⟩ | rfl
    · simp [stands, other]
    · decide
  unfold segment
  rw [trimmed]
  split
  · rename_i none
    exact absurd (String.toList_inj.mp none) some
  · rw [withColons, String.toList_ofList, List.map_map]
    exact (List.map_congr_left restored).trans (List.map_id' _)

namespace Address

/-- An address is written with hexadecimal digits, dots and colons. A segment leaves the first two as they are. -/
theorem keepsApart_of_mem_text {a : Address} {c : Char} (here : c ∈ a.text.toList) : KeepsApart c := by
  have digits : ∀ d < 16, isSegmentChar (Nat.digitChar d) = true ∧ Nat.digitChar d ≠ '_' := by decide
  rcases mem_text here with ⟨d, small, rfl⟩ | rfl | rfl
  · exact .inl (digits d small)
  · exact .inl (by decide)
  · exact .inr rfl

end Address

/-- The name of a client that is told by the other end of its connection. -/
def peerName (peer : Option Endpoint) : String := (peer.map fun e => e.address.text).getD "unknown"

/-- An address is not written as what stands for an unknown peer, which has a `k` in it. -/
theorem Address.text_ne_unknown (a : Address) : a.text ≠ "unknown" := by
  intro same
  have here : 'k' ∈ a.text.toList := by
    rw [same]
    decide
  have noDigit : ∀ d < 16, 'k' ≠ Nat.digitChar d := by decide
  rcases mem_text here with ⟨d, small, is⟩ | is | is
  · exact noDigit d small is
  · cases is
  · cases is

/-- So the names of all peers have such characters only: the one of an unknown peer consists of letters. -/
theorem keepsApart_of_mem_peerName {peer : Option Endpoint} {c : Char} (here : c ∈ (peerName peer).toList) : KeepsApart c := by
  cases peer with
  | none =>
    have letters : "unknown".toList.all (fun c => isSegmentChar c = true ∧ c ≠ '_') = true := by decide
    exact .inl (of_decide_eq_true (List.all_eq_true.mp letters c here))
  | some e => exact e.address.keepsApart_of_mem_text here

/-- And none of them is empty. -/
theorem peerName_ne_empty (peer : Option Endpoint) : peerName peer ≠ "" := by
  cases peer with
  | none => decide
  | some e =>
    obtain ⟨c, here⟩ := e.address.exists_mem_text
    intro empty
    rw [show e.address.text = "" from empty] at here
    cases here

/-- The name tells the address, and whether it is known: addresses have different texts, and none has the text that
stands for an unknown peer. -/
theorem peerName_injective {peer peer' : Option Endpoint} (same : peerName peer = peerName peer') :
    peer.map Endpoint.address = peer'.map Endpoint.address := by
  cases peer with
  | none =>
    cases peer' with
    | none => rfl
    | some e' => exact absurd same.symm e'.address.text_ne_unknown
  | some e =>
    cases peer' with
    | none => exact absurd same e.address.text_ne_unknown
    | some e' => exact congrArg some (Address.text_injective same)

/-- So does the segment of the name. With colons put back for its underscores it is the name again. -/
theorem segment_peerName_eq_iff {peer peer' : Option Endpoint} :
    segment (peerName peer) = segment (peerName peer') ↔ peer.map Endpoint.address = peer'.map Endpoint.address := by
  constructor
  · intro same
    have chars : (peerName peer).toList = (peerName peer').toList :=
      calc (peerName peer).toList
          = withColons (segment (peerName peer)) :=
            (withColons_segment (peerName_ne_empty peer) fun _ => keepsApart_of_mem_peerName).symm
        _ = withColons (segment (peerName peer')) := by rw [same]
        _ = (peerName peer').toList := withColons_segment (peerName_ne_empty peer') fun _ => keepsApart_of_mem_peerName
    exact peerName_injective (String.toList_inj.mp chars)
  · intro same
    have names : peerName peer = peerName peer' := by
      unfold peerName
      have texts := congrArg (Option.map Address.text) same
      rw [Option.map_map, Option.map_map] at texts
      exact congrArg (Option.getD · "unknown") texts
    rw [names]

namespace Service

/-- What a service calls for a client: what it may call at all, and no bucket but one of this client. -/
def AsksFor (service : Service) (client : String) (c : Call) : Prop :=
  service.Asks c ∧ ∀ key limit cost, c = .take key limit cost → ∃ path method, key = (BucketKey.of client path method).text

/-- A client's requests take from buckets under its own name only. Whatever else they ask for is asked at records and
locks, and nothing is taken there. -/
theorem allows_asksFor (service : Service) (client : String) : service.Allows client (service.AsksFor client) where
  take path method cost usable coverable := by
    refine ⟨.take client path method cost usable coverable, fun key limit cost' is => ?_⟩
    cases is
    exact ⟨path, method, rfl⟩
  record key c asks := by
    refine ⟨.record c asks.1, fun key' limit cost is => ?_⟩
    subst is
    cases asks.1
  lock path method idempotent key c asks := by
    refine ⟨.lock path method idempotent c asks.1, fun key' limit cost is => ?_⟩
    subst is
    cases asks.1
  ping := ⟨.ping, fun key limit cost is => by cases is⟩

/-- Where headers are not trusted, a client is named by its peer, whatever its headers say. -/
theorem clientName_of_untrusting {service : Service} (untrusting : service.trustHeaders = false) (r : Request) :
    clientName r.headers r.peer service.trustHeaders = peerName r.peer := by
  rw [untrusting]
  rfl

/-- What a guarded request takes it takes from its own bucket. The guard charges that one, what it asks for at the
record and the lock of a key takes nothing, and neither does the operation. -/
theorem takes_from_bucket (service : Service) (pattern : String) (r : Request) {operation : Program Response Response}
    (within : operation.StaysWithin fun c => ∀ key limit cost, c ≠ .take key limit cost) :
    (service.guarded pattern r operation).StaysWithin fun c =>
      ∀ key limit cost, c = .take key limit cost → key = (service.invocation pattern r).bucket.text := by
  refine service.guarded_asks_only pattern r ?_ ?_ ?_ (within.mono fun c none key limit cost is => absurd is (none key limit cost))
  · rintro - - key limit cost ⟨⟩
    rfl
  · rintro key - - c ⟨asks, -⟩ key' limit cost rfl
    cases asks
  · rintro - key - - c ⟨asks, -⟩ key' limit cost rfl
    cases asks

end Service

/-- Where forwarding headers are not trusted, requests are charged to one bucket exactly if they come from one address, or
from nowhere that is known, and are for one endpoint and method, whatever their headers and ports. A guarded request takes
from no other bucket. So, whatever requests a service is asked and in whatever order their calls come to the store: nothing
but requests from one address ever touches a bucket that has been taken from for that address. -/
theorem peers_have_buckets_of_their_own (service : Service) (untrusting : service.trustHeaders = false) :
    (∀ pattern (r : Request) pattern' (r' : Request),
      (service.invocation pattern r).bucket = (service.invocation pattern' r').bucket ↔
        r.peer.map Endpoint.address = r'.peer.map Endpoint.address ∧
          endpointSegment pattern = endpointSegment pattern' ∧ methodSegment r.method = methodSegment r'.method) ∧
    (∀ pattern (r : Request) (operation : Program Response Response),
      (operation.StaysWithin fun c => ∀ key limit cost, c ≠ .take key limit cost) →
        (service.guarded pattern r operation).StaysWithin fun c =>
          ∀ key limit cost, c = .take key limit cost → key = (service.invocation pattern r).bucket.text) ∧
    (∀ (site : Http.Site Service.Action) (view : Nat → View) (request : Nat → Request) (k : String)
        (w w' : Crowd Binary64 Response (Response × Option (String × Ending))),
      (∀ i, w.callers i = service.answer site (view i) (request i)) → w.past = [] →
        Crowd.Course k (fun _ _ _ => True) w w' →
          ∀ note ∈ w'.past, ∀ key limit cost, note.deed.call? = some (.take key limit cost) →
            ∀ note' ∈ w'.past, ∀ c, note'.deed.call? = some c → c.key? = some key →
              (request note.caller).peer.map Endpoint.address = (request note'.caller).peer.map Endpoint.address) := by
  refine ⟨fun pattern r pattern' r' => ?_, fun pattern r operation within => service.takes_from_bucket pattern r within, ?_⟩
  · refine BucketKey.of_eq_iff.trans ?_
    rw [service.clientName_of_untrusting untrusting, service.clientName_of_untrusting untrusting, segment_peerName_eq_iff]
  · intro site view request k w w' callers nobody course note noted key limit cost took note' noted' c called touched
    have asked {note : Note Response} (noted : note ∈ w'.past) {c : Call} (called : note.deed.call? = some c) :
        service.AsksFor (peerName (request note.caller).peer) c := by
      have within : (w.callers note.caller).StaysWithin (service.AsksFor (peerName (request note.caller).peer)) := by
        rw [callers]
        exact (service.allows_asksFor _).answer site _ _ (service.clientName_of_untrusting untrusting _)
      exact within.asksOnly _ _ (course.leadsTo nobody note.caller) note.deed
        (Crowd.mem_deedsOf.mpr ⟨note.time, noted⟩) c called
    obtain ⟨path, method, rfl⟩ := (asked noted took).2 _ _ _ rfl
    obtain ⟨asks, mine⟩ := asked noted' called
    obtain ⟨cost', rfl⟩ := asks.at_bucket touched
    obtain ⟨path', method', same⟩ := mine _ _ _ rfl
    have names := (BucketKey.of_eq_iff.mp (congrArg BucketKey.mk same)).1
    exact segment_peerName_eq_iff.mp names

/-- Three callers ask how one limit stands: from an address, from the one of version 6 that stands for it, and from the first
address again, from another port and in the name of somebody else. -/
def lookalikePeers (i : Nat) : Request :=
  let asked := limitRequest "path=/api/payments&method=POST"
  let short : Address := .v4 1 2 3 4
  let long : Address := .v6 #v[0, 0, 0, 0, 0, 0xffff, 0x102, 0x304]
  if i = 0 then { asked with peer := some ⟨short, 1000, 0⟩ }
  else if i = 1 then { asked with peer := some ⟨long, 1000, 0⟩ }
  else
    { asked with
      peer := some ⟨short, 2000, 0⟩
      headers := ⟨[⟨"x-forwarded-for", Http.octetsOf "::ffff:1.2.3.4"⟩]⟩ }

/-- The first and the third caller take from one bucket. The second one does not, though its address stands for theirs. -/
theorem peers_have_buckets_of_their_own_lookalikes :
    tariffService.trustHeaders = false ∧
    (tariffService.invocation "/api/payments" (lookalikePeers 0)).bucket ≠
      (tariffService.invocation "/api/payments" (lookalikePeers 1)).bucket ∧
    (tariffService.invocation "/api/payments" (lookalikePeers 0)).bucket =
      (tariffService.invocation "/api/payments" (lookalikePeers 2)).bucket ∧
    ∃ w', (Crowd.atEmptyStore fun i => tariffService.answer Service.site ⟨0, 0, .empty⟩ (lookalikePeers i)).play ""
        (fun _ _ _ => true) [.call 0, .call 1, .call 2] = some w' ∧
      ∃ first second third, w'.past = [third, second, first] ∧ second.caller = 1 ∧
        ∃ key limit cost c, first.deed.call? = some (.take key limit cost) ∧ third.deed.call? = some c ∧
          c.key? = some key ∧ ∀ c', second.deed.call? = some c' → c'.key? ≠ some key := by
  obtain ⟨told, -, apart⟩ := peers_have_buckets_of_their_own tariffService rfl
  have strangers : (lookalikePeers 0).peer.map Endpoint.address ≠ (lookalikePeers 1).peer.map Endpoint.address := by decide
  have mine : (lookalikePeers 0).peer.map Endpoint.address = (lookalikePeers 2).peer.map Endpoint.address := by decide
  refine ⟨rfl, fun same => strangers ((told _ _ _ _).mp same).1, (told _ _ _ _).mpr ⟨mine, rfl, rfl⟩, ?_⟩
  have played : ((Crowd.atEmptyStore fun i => tariffService.answer Service.site ⟨0, 0, .empty⟩ (lookalikePeers i)).play ""
      (fun _ _ _ => true) [.call 0, .call 1, .call 2]).map (fun w => w.past.map fun note =>
        (note.caller, note.deed.call?.bind Call.key?)) =
      some [(2, some (BucketKey.of "1.2.3.4" "/api/payments" "POST").text),
        (1, some (BucketKey.of "::ffff:1.2.3.4" "/api/payments" "POST").text),
        (0, some (BucketKey.of "1.2.3.4" "/api/payments" "POST").text)] := by decide +kernel
  obtain ⟨w', is, shown⟩ := Option.map_eq_some_iff.mp played
  have course := Crowd.course_of_play (fun _ _ _ _ => trivial) is
  obtain ⟨third, others, past, late, shown⟩ := List.map_eq_cons_iff.mp shown
  obtain ⟨second, others, rfl, between, shown⟩ := List.map_eq_cons_iff.mp shown
  obtain ⟨first, none, rfl, early, nothing⟩ := List.map_eq_cons_iff.mp shown
  obtain rfl := List.map_eq_nil_iff.mp nothing
  obtain ⟨caller, touched⟩ := Prod.mk.inj early
  obtain ⟨caller', -⟩ := Prod.mk.inj between
  obtain ⟨-, touched''⟩ := Prod.mk.inj late
  obtain ⟨c, called, touches⟩ := Option.bind_eq_some_iff.mp touched
  obtain ⟨c'', called'', touches''⟩ := Option.bind_eq_some_iff.mp touched''
  have noted : first ∈ w'.past := by simp [past]
  have noted' : second ∈ w'.past := by simp [past]
  obtain ⟨cost, rfl⟩ := (course.asks rfl (fun i => tariffService.answer_asks ..) noted called).at_bucket touches
  refine ⟨w', is, first, second, third, past, caller', _, _, cost, c'', called, called'', touches'', fun c' called' touches' => ?_⟩
  have same := apart Service.site _ lookalikePeers "" _ w' (fun _ => rfl) rfl course first noted _ _ _ called second noted' c'
    called' touches'
  rw [caller, caller'] at same
  exact strangers same

end Turnstile
