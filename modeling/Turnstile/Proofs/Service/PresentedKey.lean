import Turnstile.Proofs.Guard.Gate
import Turnstile.Proofs.Service.Asks
import Turnstile.Proofs.Service.Buckets
import Turnstile.Proofs.Service.Replay
import Turnstile.Proofs.Text.Glyph

/-!
The octets of a presented key.

The key of a guarded request is checked after it is admitted and before anything is asked about the key. The check is made
on what the octets of the header are read as, yet it is a check of the octets: they are accepted exactly if they are one to
256 octets of printable ASCII without the space. Then record and lock are at keys that end in these very octets, so different
octets have neither in common. Any other request ends right there, having asked for nothing but its tokens.
-/

namespace Turnstile

open Http (Request Response octetsOf)

/-- A call at the record of the key that has these octets, or at its lock. -/
def AtKey (octets : List UInt8) (c : Call) : Prop :=
  ∃ key, octetsOf key = octets ∧ (c.key? = some (recordKey key) ∨ c.key? = some (lockKey key))

/-- Keys of different octets have neither a record nor a lock in common: different octets are of different keys, and the
prefix of a record or a lock leaves the key behind it as it is. -/
theorem AtKey.apart {octets octets' : List UInt8} {c c' : Call} (asked : AtKey octets c) (asked' : AtKey octets' c')
    (other : octets ≠ octets') : c.key? ≠ c'.key? := by
  obtain ⟨key, rfl, touched⟩ := asked
  obtain ⟨key', rfl, touched'⟩ := asked'
  have different : key ≠ key' := by
    rintro rfl
    exact other rfl
  intro same
  rcases touched with record | lock <;> rcases touched' with record' | lock'
  · exact different (recordKey_injective (Option.some.inj (record.symm.trans (same.trans record'))))
  · exact recordKey_ne_lockKey _ _ (Option.some.inj (record.symm.trans (same.trans lock')))
  · exact recordKey_ne_lockKey _ _ (Option.some.inj (record'.symm.trans (same.symm.trans lock)))
  · exact different (lockKey_injective (Option.some.inj (lock.symm.trans (same.trans lock'))))

namespace Service

/-- The call that charges a request to its bucket. -/
def charge (service : Service) (pattern : String) (r : Request) : Call :=
  .take (service.invocation pattern r).bucket.text (service.invocation pattern r).policy.limit
    (service.invocation pattern r).policy.cost

/-- By these deeds a request is admitted. -/
def Admits (service : Service) (pattern : String) (r : Request) (first : List (Deed Response)) : Prop :=
  ∃ admission, (service.guard.throttle.pass (service.invocation pattern r).bucket
    (service.invocation pattern r).policy).Wins first admission

/-- What becomes of a guarded request that presents these octets as its key. -/
structure KeyRuled (service : Service) (pattern : String) (r : Request) (operation : Program Response Response)
    (octets : List UInt8) : Prop where
  /-- Once it is admitted the request goes on, exactly if the octets are a key. -/
  accepted : ∀ first, service.Admits pattern r first →
    ((∃ c next, (service.guarded pattern r operation).LeadsTo first (.call none c next)) ↔ IsKeyText octets)
  /-- It goes on with the record of the key that has these very octets. -/
  looked : IsKeyText octets → ∃ key, octetsOf key = octets ∧ ∀ first, service.Admits pattern r first →
    ∃ next, (service.guarded pattern r operation).LeadsTo first (.call none (.get (recordKey key)) next)
  /-- Without any octets it ends there, for want of a key. -/
  missing : octets = [] → ∀ first, service.Admits pattern r first →
    (service.guarded pattern r operation).Ends first
      (Failure.missingKey.respond, some (r.method ++ " " ++ pattern, .failed))
  /-- With any other octets that are no key it ends there as well, for its key is invalid. -/
  invalid : octets ≠ [] → ¬ IsKeyText octets → ∃ why, ∀ first, service.Admits pattern r first →
    (service.guarded pattern r operation).Ends first
      ((Failure.invalidKey why).respond, some (r.method ++ " " ++ pattern, .failed))
  /-- Unless the octets are a key, nothing is asked but the bucket. -/
  untouched : ¬ IsKeyText octets → (service.guarded pattern r operation).AsksOnly (· = service.charge pattern r)
  /-- If they are, all that is asked beside the bucket and by the operation is asked at the key of these octets. -/
  literal : IsKeyText octets → ∀ allowed : Call → Prop, operation.StaysWithin allowed →
    (service.guarded pattern r operation).StaysWithin fun c =>
      c = service.charge pattern r ∨ AtKey octets c ∨ allowed c

section

variable {service : Service} {pattern : String} {r : Request} (operation : Program Response Response) {origin : KeyOrigin}
  {key : String} (idempotent : (service.policies.resolve pattern r.method).origin = some origin)
  (presented : (service.invocation pattern r).key = some key)
include idempotent presented

/-- A key with a fault is refused right after the admission. The check comes before anything is asked at the key. -/
theorem run_refused {τ : Type} {c : Codec τ} {attempt : Attempt Response τ} {fault : KeyFault}
    (faulty : keyFault? key = some fault) :
    service.guard.run c (service.invocation pattern r) attempt =
      service.guard.throttle.pass (service.invocation pattern r).bucket (service.invocation pattern r).policy >>=
        fun _ => throw fault.failure := by
  have route : (service.invocation pattern r).policy.origin = some origin := idempotent
  unfold Guard.run Registry.checkKey
  simp only [route, presented, faulty]
  rfl

/-- The record of a key without a fault is read right after the admission. What follows depends on the answer and is
left open here. -/
theorem run_looks {τ : Type} (c : Codec τ) (attempt : Attempt Response τ) (valid : keyFault? key = none) :
    ∃ next : Admission → Except Failure (Option String) → Program Response (Except Failure (Guarded τ)),
      service.guard.run c (service.invocation pattern r) attempt =
        service.guard.throttle.pass (service.invocation pattern r).bucket (service.invocation pattern r).policy >>=
          fun admission => ExceptT.mk (.call none (.get (recordKey key)) (next admission)) := by
  have route : (service.invocation pattern r).policy.origin = some origin := idempotent
  unfold Guard.run Registry.checkKey
  simp only [route, presented, valid]
  exact ⟨_, rfl⟩

/-- A request whose key has a fault ends as soon as it is admitted, with the response to the fault, and counts as
failed. -/
theorem ends_refused {fault : KeyFault} (faulty : keyFault? key = some fault) {first : List (Deed Response)}
    (admits : service.Admits pattern r first) :
    (service.guarded pattern r operation).Ends first
      (fault.failure.respond, some (r.method ++ " " ++ pattern, .failed)) := by
  obtain ⟨admission, wins⟩ := admits
  unfold guarded
  rw [run_refused idempotent presented faulty]
  have failed : Ending.of (.error fault.failure : Except Failure (Guarded Recording)) = .failed := by cases fault <;> rfl
  refine Program.ends_bind.mpr ⟨.error fault.failure, first, [], ?_, ?_, (List.append_nil _).symm⟩
  · exact Program.ends_bind.mpr ⟨.ok admission, first, [], wins, Attempt.ends_done.mpr ⟨rfl, rfl⟩, (List.append_nil _).symm⟩
  · rw [failed]
    exact Attempt.ends_done.mpr ⟨rfl, rfl⟩

/-- It asks for its tokens only, since the admission is all that is done before it is refused. -/
theorem asksOnly_refused {fault : KeyFault} (faulty : keyFault? key = some fault) :
    (service.guarded pattern r operation).AsksOnly (· = service.charge pattern r) := by
  unfold guarded
  rw [run_refused idempotent presented faulty]
  refine Program.AsksOnly.bind (Program.AsksOnly.bind asksOnly_pass fun outcome => ?_) fun _ => Program.asksOnly_done
  cases outcome <;> exact Program.asksOnly_done

/-- A request whose key has no fault comes to the record of its key as soon as it is admitted: the deeds of the
admission lead to the call that reads it. -/
theorem looks_accepted (valid : keyFault? key = none) {first : List (Deed Response)} (admits : service.Admits pattern r first) :
    ∃ next, (service.guarded pattern r operation).LeadsTo first (.call none (.get (recordKey key)) next) := by
  obtain ⟨admission, wins⟩ := admits
  obtain ⟨next, is⟩ := run_looks idempotent presented .recording (recorded operation) valid
  unfold guarded
  rw [is]
  refine ⟨_, Program.leadsTo_bind.mpr (.inl ⟨.call none (.get (recordKey key)) (next admission), by simp, ?_, rfl⟩)⟩
  exact Program.leadsTo_bind.mpr (.inr ⟨.ok admission, first, [], wins, .start _, (List.append_nil _).symm⟩)

end

variable {service : Service} {pattern : String} {r : Request} {operation : Program Response Response} {octets : List UInt8}

/-- What is asked about a key of these octets is asked at its record or at its lock. The key is read from the octets and
has the very same ones, since they are printable. -/
theorem asks_at_key (text : IsKeyText octets) {c : Call}
    (asks : service.guard.registry.AsksAt (Text.lossy octets) c ∨
      Lease.AsksAt service.guard.lockLife (Text.lossy octets) c) : AtKey octets c :=
  ⟨Text.lossy octets, Text.octetsOf_lossy text.printable, asks.imp And.right And.right⟩

/-- On an idempotent route the octets of a header are taken as a key by their grammar alone. Each part follows from what
the check of the key says of them: without a fault the request looks up its record, and with one it ends. -/
theorem keyRuled_of_header {origin : KeyOrigin} (idempotent : (service.policies.resolve pattern r.method).origin = some origin)
    (header : r.headers.get? "idempotency-key" = some octets) : service.KeyRuled pattern r operation octets := by
  have presented : (service.invocation pattern r).key = some (Text.lossy octets) := congrArg (Option.map Text.lossy) header
  have faulty (broken : ¬ IsKeyText octets) : ∃ fault, keyFault? (Text.lossy octets) = some fault :=
    Option.ne_none_iff_exists'.mp fun valid => broken (keyFault?_lossy_eq_none_iff.mp valid)
  have looks (text : IsKeyText octets) {first : List (Deed Response)} (admits : service.Admits pattern r first) :=
    looks_accepted operation idempotent presented (keyFault?_lossy_eq_none_iff.mpr text) admits
  constructor
  case accepted =>
    refine fun first admits => ⟨?_, fun text => ⟨_, looks text admits⟩⟩
    rintro ⟨c, next, onward⟩
    by_contra broken
    obtain ⟨fault, faulty⟩ := faulty broken
    have ends := ends_refused operation idempotent presented faulty admits
    rw [← List.append_nil first] at ends
    cases onward.onward ends
  case looked =>
    exact fun text => ⟨_, Text.octetsOf_lossy text.printable, fun first admits => looks text admits⟩
  case missing =>
    rintro rfl first admits
    have faulty : keyFault? (Text.lossy []) = some .missing := keyFault?_lossy_eq_missing_iff.mpr rfl
    exact ends_refused operation idempotent presented faulty admits
  case invalid =>
    intro some broken
    obtain ⟨fault, faulty⟩ := faulty broken
    cases fault with
    | missing => exact absurd (keyFault?_lossy_eq_missing_iff.mp faulty) some
    | tooLong => exact ⟨_, fun first admits => ends_refused operation idempotent presented faulty admits⟩
    | forbidden => exact ⟨_, fun first admits => ends_refused operation idempotent presented faulty admits⟩
  case untouched =>
    intro broken
    obtain ⟨fault, faulty⟩ := faulty broken
    exact asksOnly_refused operation idempotent presented faulty
  case literal =>
    intro text allowed within
    refine service.guarded_asks_only pattern r (fun _ _ => .inl rfl) ?_ ?_ (within.mono fun c asks => .inr (.inr asks))
    · intro key is _ c asks
      obtain rfl := Option.some.inj (presented.symm.trans is)
      exact .inr (.inl (asks_at_key text (.inl asks)))
    · intro _ key is _ c asks
      obtain rfl := Option.some.inj (presented.symm.trans is)
      exact .inr (.inl (asks_at_key text (.inr asks)))

/-- On an idempotent route a request that is admitted goes on exactly if the octets that it presents as its key are one to
256 octets of printable ASCII without the space. It goes on with the key of these very octets, and different octets have
neither a record nor a lock in common. Without any octets the request fails for want of a key, with others for a key that is
invalid, and nothing is asked but its bucket. So nothing is ever taken as a key that is not UTF-8 or not ASCII, or that ends
in a line break. -/
theorem key_grammar_is_exact (service : Service) (pattern : String) (r : Request) (operation : Program Response Response)
    (octets : List UInt8) (origin : KeyOrigin) (idempotent : (service.policies.resolve pattern r.method).origin = some origin)
    (header : r.headers.get? "idempotency-key" = some octets) :
    service.KeyRuled pattern r operation octets ∧
    (∀ octets' c c', octets ≠ octets' → AtKey octets c → AtKey octets' c' → c.key? ≠ c'.key?) ∧
    (Text.ofOctets? octets = none → ¬ IsKeyText octets) ∧
    ((∃ b ∈ octets, 0x80 ≤ b) → ¬ IsKeyText octets) ∧
    (octets.getLast? = some 0x0a ∨ octets.getLast? = some 0x0d → ¬ IsKeyText octets) := by
  refine ⟨keyRuled_of_header idempotent header, fun _ _ _ other asked asked' => asked.apart asked' other, ?_, ?_, ?_⟩
  · intro stray text
    rw [text.ofOctets?_eq] at stray
    cases stray
  · rintro ⟨b, here, beyond⟩ text
    exact absurd (UInt8.le_trans beyond (text.printable b here).2) (by decide)
  · intro ends text
    have printable {b : UInt8} (last : octets.getLast? = some b) : 0x21 ≤ b :=
      (text.printable b (List.mem_of_getLast? last)).1
    rcases ends with last | last
    · exact absurd (printable last) (by decide)
    · exact absurd (printable last) (by decide)

/-- An order that presents a key with an octet that is not UTF-8 and a line break behind it. -/
def brokenOrder : Request := { order with headers := ⟨[⟨"idempotency-key", [0x6f, 0xff, 0x0a]⟩]⟩ }

/-- Any order is admitted as soon as it is granted its token. That is the only deed of its admission. -/
theorem admits_order (r : Request) : paymentService.Admits "/api/payments" r
    [.called (paymentService.charge "/api/payments" r) (.ok (⟨true, 99, 0⟩ : Grant))] :=
  ⟨_, .answered none (paymentService.charge "/api/payments" r) _ (.ok (⟨true, 99, 0⟩ : Grant)) [] _ (.start _)⟩

/-- A key of printable octets is looked up, and one with an octet that is not UTF-8 and a line break behind it is
refused. -/
theorem key_grammar_is_exact_brokenOrder :
    (paymentService.policies.resolve "/api/payments" "POST").origin = some .client ∧
    order.headers.get? "idempotency-key" = some (octetsOf "order-1") ∧
    brokenOrder.headers.get? "idempotency-key" = some [0x6f, 0xff, 0x0a] ∧
    (∃ first key next, octetsOf key = octetsOf "order-1" ∧ paymentService.Admits "/api/payments" order first ∧
      (paymentService.guarded "/api/payments" order (responding Attempt.wrapped)).LeadsTo first
        (.call none (.get (recordKey key)) next)) ∧
    ∃ first why, paymentService.Admits "/api/payments" brokenOrder first ∧
      (paymentService.guarded "/api/payments" brokenOrder (responding Attempt.wrapped)).Ends first
        ((Failure.invalidKey why).respond, some ("POST /api/payments", .failed)) := by
  obtain ⟨taken, -⟩ := key_grammar_is_exact paymentService "/api/payments" order (responding Attempt.wrapped)
    (octetsOf "order-1") .client rfl rfl
  obtain ⟨refused, -, -, -, broken⟩ := key_grammar_is_exact paymentService "/api/payments" brokenOrder
    (responding Attempt.wrapped) [0x6f, 0xff, 0x0a] .client rfl rfl
  have text : IsKeyText (octetsOf "order-1") :=
    { some := by decide, short := by decide, printable := by decide +kernel }
  obtain ⟨key, bytes, looks⟩ := taken.looked text
  obtain ⟨next, onward⟩ := looks _ (admits_order order)
  obtain ⟨why, ends⟩ := refused.invalid (by decide) (broken (.inl rfl))
  exact ⟨rfl, rfl, rfl, ⟨_, key, next, bytes, admits_order order, onward⟩,
    _, why, admits_order brokenOrder, ends _ (admits_order brokenOrder)⟩

end Service

end Turnstile
