import Turnstile.Proofs.Crowd.Trace
import Turnstile.Proofs.Guard.Visit

/-!
The way to the operation.

What a guarded call has done when its operation is invoked is told exactly, whatever the store answers, whichever
calls fail and whatever others do in between. Admission comes first. On an idempotent route there follow a look at a
valid key, the key's lock and a second look, each of them answered, and neither look finds a result. The one failure
that is passed over is that of a bucket which can not be asked, and only if requests go on openly then. So a call that
is admitted without a look at its bucket is still bound by the registry and the lock.
-/

namespace Turnstile

variable {α ω τ : Type}

/-- The call that charges a passage to its bucket. -/
def Passage.charge (passage : Passage τ) : Call :=
  .take passage.bucket.text passage.policy.limit passage.policy.cost

/-- By these deeds the passage is admitted. -/
def Admitted (g : Guard) (passage : Passage τ) (deeds : List (Deed (Except Failure τ))) (admission : Admission) : Prop :=
  (g.throttle.pass passage.bucket passage.policy).Wins deeds admission

/-- A look at a key that finds no result: the record is pending, or there is none and the key is new to a route
whose clients bring their keys. -/
inductive FoundOpen (g : Guard) (key : String) (origin : KeyOrigin) : List (Deed ω) → Prop
  | pending (text : String) (reads : Record.read text = .ok .pending) :
      FoundOpen g key origin [.called (.get (recordKey key)) (.ok (some text))]
  | unseen (client : origin = .client) (created : Bool) :
      FoundOpen g key origin [.called (.get (recordKey key)) (.ok none),
        .called (.setIfAbsent (recordKey key) Record.placeholder g.registry.life) (.ok created)]

/-- What a passage has done when its operation is invoked. -/
inductive Gate (g : Guard) (passage : Passage τ) : List (Deed (Except Failure τ)) → Admission → Prop
  | unguarded (first : List (Deed (Except Failure τ))) (admission : Admission)
      (admitted : Admitted g passage first admission) (route : passage.policy.origin = none) :
      Gate g passage first admission
  | guarded (first look again : List (Deed (Except Failure τ))) (admission : Admission) (origin : KeyOrigin)
      (key token : String) (admitted : Admitted g passage first admission)
      (route : passage.policy.origin = some origin) (presented : passage.key = some key) (valid : keyFault? key = none)
      (looked : FoundOpen g key origin look) (lookedAgain : FoundOpen g key origin again) :
      Gate g passage
        (first ++ look ++ .named token :: .called (.setIfAbsent (lockKey key) token g.lockLife) (.ok true) :: again)
        admission

/-! Admission. -/

section

variable {deeds : List (Deed ω)} {t : Throttle} {key : BucketKey} {limit : Limit} {cost : UInt32} {p : Policy}

/-- Asking a bucket never comes to an operation: either the limit is refused at once, or there is the one call of the
store and nothing behind it. -/
theorem comesToWork_consume : ¬ (Throttle.consume key limit cost : Attempt ω _).ComesToWork deeds := by
  unfold Throttle.consume
  split
  · exact Attempt.comesToWork_throw
  · exact Attempt.comesToWork_ask

/-- Nor does admission. It asks the bucket and then only judges the outcome, so whatever was answered it ends without an
operation. -/
theorem comesToWork_pass : ¬ (t.pass key p : Attempt ω _).ComesToWork deeds := by
  unfold Throttle.pass
  simp only
  split
  · exact Attempt.comesToWork_throw
  · refine Attempt.not_comesToWork_bind (fun _ comes => ?_) fun outcome _ => ?_
    · exact comesToWork_consume (Attempt.comesToWork_caught.mp comes)
    · split
      · split
        · exact Attempt.comesToWork_pure
        · exact Attempt.comesToWork_throw
      · split
        · exact Attempt.comesToWork_pure
        · exact Attempt.not_comesToWork_bind (fun _ => Attempt.comesToWork_ofBreakdown)
            fun _ _ => Attempt.comesToWork_throw

/-- The only call that admission can make is the one that charges the bucket. An unusable limit makes none, and after
the answer no branch of the verdict calls the store again. -/
theorem asksOnly_pass : (t.pass key p : Attempt ω _).run.AsksOnly (· = .take key.text p.limit p.cost) := by
  unfold Throttle.pass
  simp only
  split
  · exact Program.asksOnly_done
  · refine Program.AsksOnly.bind (Program.AsksOnly.bind ?_ fun _ => Program.asksOnly_done) fun outcome => ?_
    · unfold Throttle.consume
      split
      · exact Program.asksOnly_done
      · exact Program.asksOnly_call rfl fun _ => Program.asksOnly_done
    · match outcome with
      | .error _ => exact Program.asksOnly_done
      | .ok (.error failure) =>
        change Program.AsksOnly _ (ExceptT.run _)
        simp only
        split <;> exact Program.asksOnly_done
      | .ok (.ok grant) =>
        change Program.AsksOnly _ (ExceptT.run _)
        simp only
        split
        · exact Program.asksOnly_done
        · refine Program.AsksOnly.bind ?_ fun seconds => ?_
          · cases Throttle.retryAfter grant.wait with
            | ok seconds => exact Program.asksOnly_done
            | error why => exact Program.asksOnly_broken
          · cases seconds <;> exact Program.asksOnly_done

/-- A bucket is asked by one call, or not at all. It is not asked if its limit is at fault, and the outcome is then that
fault; otherwise the outcome is just what the store answered. -/
theorem ends_consume {outcome : Except Failure Grant}
    (ends : (Throttle.consume key limit cost : Attempt ω _).run.Ends deeds outcome) :
    deeds = [.called (.take key.text limit cost) outcome] ∨
      ∃ fault, limit.fault? = some fault ∧ deeds = [] ∧ outcome = .error (.misconfigured fault.message) := by
  unfold Throttle.consume at ends
  split at ends
  · rename_i fault faulty
    obtain ⟨rfl, rfl⟩ := Attempt.ends_done.mp ends
    exact .inr ⟨fault, faulty, rfl, rfl⟩
  · obtain ⟨reply, rest, rfl, onward⟩ := Attempt.ends_call.mp ends
    obtain ⟨rfl, rfl⟩ := Attempt.ends_done.mp onward
    exact .inl rfl

/-- Whoever is admitted was granted its tokens, or the store could not be reached and requests go on openly. All other
outcomes are refusals, so an admission also tells which of the two it was. -/
theorem wins_pass {admission : Admission} (wins : (t.pass key p : Attempt ω _).Wins deeds admission) :
    (∃ grant, deeds = [.called (.take key.text p.limit p.cost) (.ok grant)] ∧ grant.granted = true ∧
        admission = t.admission p grant) ∨
      ∃ reason, deeds = [.called (.take key.text p.limit p.cost) (.error (.storeUnavailable reason))] ∧
        t.onOutage = .openly ∧ admission = Throttle.unlimited p.limit.capacity := by
  unfold Throttle.pass at wins
  simp only at wins
  split at wins
  · exact absurd wins Attempt.wins_throw
  · obtain ⟨outcome, first, rest, caught, onward, is⟩ := Attempt.wins_bind.mp wins
    have asked := ends_consume (Attempt.wins_caught.mp caught)
    cases outcome with
    | error failure =>
      simp only at onward
      split at onward
      · rename_i lets
        obtain ⟨rfl, rfl⟩ := Attempt.wins_pure.mp onward
        rcases asked with rfl | ⟨fault, _, _, misconfigured⟩
        · cases failure with
          | storeUnavailable reason => exact .inr ⟨reason, is, of_decide_eq_true lets, rfl⟩
          | _ => cases lets
        · cases misconfigured
          cases lets
      · exact absurd onward Attempt.wins_throw
    | ok grant =>
      simp only at onward
      split at onward
      · rename_i granted
        obtain ⟨rfl, rfl⟩ := Attempt.wins_pure.mp onward
        rcases asked with rfl | ⟨_, _, _, misconfigured⟩
        · exact .inl ⟨grant, is, granted, rfl⟩
        · cases misconfigured
      · obtain ⟨_, _, _, _, after, _⟩ := Attempt.wins_bind.mp onward
        exact absurd after Attempt.wins_throw

/-- An admission is degraded exactly if the store could not be reached: granted tokens give one that is whole, and the
admission without a bucket is marked. -/
theorem charged_of_pass {admission : Admission} (wins : (t.pass key p : Attempt ω _).Wins deeds admission) :
    (∃ grant, deeds = [.called (.take key.text p.limit p.cost) (.ok grant)] ∧ grant.granted = true ∧
        admission.degraded = false) ∨
      ∃ reason, deeds = [.called (.take key.text p.limit p.cost) (.error (.storeUnavailable reason))] ∧
        t.onOutage = .openly ∧ admission.degraded = true := by
  rcases wins_pass wins with ⟨grant, is, granted, rfl⟩ | ⟨reason, is, openly, rfl⟩
  · exact .inl ⟨grant, is, granted, rfl⟩
  · exact .inr ⟨reason, is, openly, rfl⟩

/-- It is never both throttled and degraded. What was granted is not degraded, and an admission for which no bucket was
asked is not throttled. -/
theorem marksApart_of_pass {admission : Admission} (wins : (t.pass key p : Attempt ω _).Wins deeds admission) :
    ¬ (admission.throttled = true ∧ admission.degraded = true) := by
  rintro ⟨throttled, degraded⟩
  rcases wins_pass wins with ⟨grant, -, -, rfl⟩ | ⟨reason, -, -, rfl⟩
  · cases degraded
  · cases throttled

end

/-! Looks, locks and what is done under them. -/

section

variable {deeds : List (Deed ω)} {g : Guard} {r : Registry} {key : String} {origin : KeyOrigin}

/-- A look at a record does not come to an operation: there is one call, and then the text is read. -/
theorem comesToWork_find : ¬ (r.find? key : Attempt ω _).ComesToWork deeds :=
  Attempt.not_comesToWork_bind (fun _ => Attempt.comesToWork_ask) fun _ _ => Attempt.comesToWork_ofResult

/-- Nor does a look that also creates a new key. Whatever record is found, what remains is an answer, a refusal or the
one call that creates the placeholder. -/
theorem comesToWork_kept : ¬ (g.kept key origin : Attempt ω _).ComesToWork deeds := by
  unfold Guard.kept
  refine Attempt.not_comesToWork_bind (fun _ => comesToWork_find) fun found _ => ?_
  match found with
  | some (.resolved value) => exact Attempt.comesToWork_pure
  | some .pending => exact Attempt.comesToWork_pure
  | none =>
    refine Attempt.not_comesToWork_bind (fun _ => ?_) fun _ _ => Attempt.comesToWork_pure
    cases origin with
    | client => exact Attempt.not_comesToWork_bind (fun _ => Attempt.comesToWork_ask) fun _ _ => Attempt.comesToWork_pure
    | server => exact Attempt.comesToWork_throw

/-- Taking a lock comes to no operation: a name is drawn and the lock is asked for, and each of the three replies ends
it. -/
theorem comesToWork_acquire {life : Span} : ¬ (Lease.acquire key life : Attempt ω _).ComesToWork deeds := by
  unfold Lease.acquire
  refine Attempt.not_comesToWork_bind (fun _ => Attempt.comesToWork_freshName) fun token _ => ?_
  refine Attempt.not_comesToWork_bind (fun _ => Attempt.comesToWork_probe) fun reply _ => ?_
  rcases reply with why | _ | _ <;> exact Attempt.comesToWork_pure

/-- Releasing a lock is one call whose outcome is dropped, so it comes to no operation. -/
theorem comesToWork_release {lease : Lease} : ¬ (lease.release : Attempt ω _).ComesToWork deeds :=
  Attempt.not_comesToWork_bind (fun _ => Attempt.comesToWork_probe) fun _ _ => Attempt.comesToWork_pure

/-- Resolving a key comes to no operation on any of its ways: the swap, the second look where the swap was refused, and
the write where nothing was found. -/
theorem comesToWork_resolve {value : Json.Value} : ¬ (r.resolve key value : Attempt ω _).ComesToWork deeds := by
  unfold Registry.resolve
  refine Attempt.not_comesToWork_bind (fun _ => Attempt.comesToWork_ask) fun replaced _ => ?_
  cases replaced with
  | true => exact Attempt.comesToWork_pure
  | false =>
    refine Attempt.not_comesToWork_bind (fun _ => comesToWork_find) fun found _ => ?_
    match found with
    | some (.resolved other) => exact Attempt.comesToWork_pure
    | some .pending => exact Attempt.comesToWork_throw
    | none =>
      refine Attempt.not_comesToWork_bind (fun _ => Attempt.comesToWork_ask) fun created _ => ?_
      cases created with
      | true => exact Attempt.comesToWork_pure
      | false =>
        refine Attempt.not_comesToWork_bind (fun _ => comesToWork_find) fun found _ => ?_
        match found with
        | some (.resolved other) => exact Attempt.comesToWork_pure
        | some .pending => exact Attempt.comesToWork_throw
        | none => exact Attempt.comesToWork_throw

/-- What a look at a record tells is in the text that was read: there is one call, it was answered, and the answer reads
as the record that was found. -/
theorem wins_find_iff {found : Option Record} :
    (r.find? key : Attempt ω _).Wins deeds found ↔
      ∃ text, deeds = [.called (.get (recordKey key)) (.ok text)] ∧ Registry.readRecord text = .ok found := by
  refine Iff.trans Attempt.wins_bind ?_
  constructor
  · rintro ⟨text, first, rest, asked, read, rfl⟩
    obtain rfl := Attempt.wins_ask.mp asked
    obtain ⟨rfl, is⟩ := Attempt.wins_ofResult.mp read
    exact ⟨text, rfl, is⟩
  · rintro ⟨text, rfl, is⟩
    exact ⟨text, _, [], Attempt.wins_ask.mpr rfl, Attempt.wins_ofResult.mpr ⟨rfl, is⟩, rfl⟩

/-- No record is found exactly if there was no text. A text that reads as a record gives that record, and one that does
not gives a fault. -/
theorem readRecord_none {text : Option String} : Registry.readRecord text = .ok none ↔ text = none := by
  constructor
  · intro read
    cases text with
    | none => rfl
    | some text =>
      unfold Registry.readRecord at read
      cases is : Record.read text with
      | ok record =>
        simp only [is] at read
        cases read
      | error fault =>
        simp only [is] at read
        cases read
  · rintro rfl
    rfl

/-- A record is found pending exactly if there was a text that reads so. Neither a missing text nor an unreadable one is
taken for a placeholder. -/
theorem readRecord_pending {text : Option String} :
    Registry.readRecord text = .ok (some .pending) ↔ ∃ s, text = some s ∧ Record.read s = .ok .pending := by
  constructor
  · intro read
    cases text with
    | none => cases read
    | some text =>
      refine ⟨text, rfl, ?_⟩
      unfold Registry.readRecord at read
      cases is : Record.read text with
      | ok record =>
        simp only [is] at read
        cases read
        rfl
      | error fault =>
        simp only [is] at read
        cases read
  · rintro ⟨text, rfl, is⟩
    simp only [Registry.readRecord, is]

/-- A key is seen first only where clients bring their keys, and then it is created, or somebody else did it in the
meantime: the call counts as answered either way. -/
theorem wins_firstSight_iff :
    (g.firstSight key origin : Attempt ω Unit).Wins deeds () ↔ origin = .client ∧
      ∃ created, deeds = [.called (.setIfAbsent (recordKey key) Record.placeholder g.registry.life) (.ok created)] := by
  cases origin with
  | client =>
    refine Iff.trans Attempt.wins_bind ?_
    constructor
    · rintro ⟨created, first, rest, asked, ended, rfl⟩
      obtain rfl := Attempt.wins_ask.mp asked
      obtain ⟨rfl, -⟩ := Attempt.wins_pure.mp ended
      exact ⟨rfl, created, rfl⟩
    · rintro ⟨-, created, rfl⟩
      exact ⟨created, _, [], Attempt.wins_ask.mpr rfl, Attempt.wins_pure.mpr ⟨rfl, rfl⟩, rfl⟩
  | server =>
    constructor
    · exact fun wins => absurd wins Attempt.wins_throw
    · rintro ⟨client, -⟩
      cases client

/-- A look finds no result exactly when all of it was answered and the record was pending or new. So `FoundOpen` tells
all the ways on towards the operation. -/
theorem wins_kept_none_iff :
    (g.kept key origin : Attempt ω _).Wins deeds none ↔ FoundOpen g key origin deeds := by
  unfold Guard.kept
  refine Iff.trans Attempt.wins_bind ?_
  constructor
  · rintro ⟨found, first, rest, looked, onward, rfl⟩
    obtain ⟨text, rfl, read⟩ := wins_find_iff.mp looked
    match found with
    | some (.resolved value) => cases (Attempt.wins_pure.mp onward).2
    | some .pending =>
      obtain ⟨rfl, -⟩ := Attempt.wins_pure.mp onward
      obtain ⟨text, rfl, reads⟩ := readRecord_pending.mp read
      exact .pending text reads
    | none =>
      obtain rfl := readRecord_none.mp read
      obtain ⟨_, issue, rest, seen, ended, rfl⟩ := Attempt.wins_bind.mp onward
      obtain ⟨client, created, rfl⟩ := wins_firstSight_iff.mp seen
      obtain ⟨rfl, -⟩ := Attempt.wins_pure.mp ended
      exact .unseen client created
  · intro open'
    cases open' with
    | pending text reads =>
      exact ⟨some .pending, _, [], wins_find_iff.mpr ⟨_, rfl, readRecord_pending.mpr ⟨text, rfl, reads⟩⟩,
        Attempt.wins_pure.mpr ⟨rfl, rfl⟩, rfl⟩
    | unseen client created =>
      refine ⟨none, _, [_], wins_find_iff.mpr ⟨none, rfl, rfl⟩, ?_, rfl⟩
      exact Attempt.wins_bind.mpr ⟨(), _, [], wins_firstSight_iff.mpr ⟨client, created, rfl⟩,
        Attempt.wins_pure.mpr ⟨rfl, rfl⟩, rfl⟩

/-- A lease is got exactly when the store answers that the lock was free. The lease holds the name that was drawn and
written; a refusal and a failed call give none. -/
theorem wins_acquire_iff {life : Span} {lease : Lease} :
    (Lease.acquire key life : Attempt ω _).Wins deeds (some lease) ↔
      ∃ token, lease = ⟨key, token⟩ ∧
        deeds = [.named token, .called (.setIfAbsent (lockKey key) token life) (.ok true)] := by
  unfold Lease.acquire
  refine Iff.trans Attempt.wins_bind ?_
  constructor
  · rintro ⟨token, first, rest, named, onward, rfl⟩
    obtain rfl := Attempt.wins_freshName.mp named
    obtain ⟨reply, tried, rest, probed, ended, rfl⟩ := Attempt.wins_bind.mp onward
    obtain rfl := Attempt.wins_probe.mp probed
    rcases reply with why | _ | _
    · cases (Attempt.wins_pure.mp ended).2
    · cases (Attempt.wins_pure.mp ended).2
    · obtain ⟨rfl, is⟩ := Attempt.wins_pure.mp ended
      cases is
      exact ⟨token, rfl, rfl⟩
  · rintro ⟨token, rfl, rfl⟩
    refine ⟨token, [_], [_], Attempt.wins_freshName.mpr rfl, Attempt.wins_bind.mpr ?_, rfl⟩
    exact ⟨.ok true, [_], [], Attempt.wins_probe.mpr rfl, Attempt.wins_pure.mpr ⟨rfl, rfl⟩, rfl⟩

/-- A key passes its check exactly if it has no fault, and no call is made for it. -/
theorem wins_checkKey_iff : (Registry.checkKey key : Attempt ω Unit).Wins deeds () ↔
    keyFault? key = none ∧ deeds = [] := by
  unfold Registry.checkKey
  split
  · rename_i fault faulty
    rw [faulty]
    constructor
    · exact fun wins => absurd wins Attempt.wins_throw
    · rintro ⟨valid, -⟩
      cases valid
  · rename_i valid
    rw [valid, Attempt.wins_pure]
    simp

/-- Checking a key comes to no operation, whether it is refused or not. -/
theorem comesToWork_checkKey : ¬ (Registry.checkKey key : Attempt ω Unit).ComesToWork deeds := by
  unfold Registry.checkKey
  split
  · exact Attempt.comesToWork_throw
  · exact Attempt.comesToWork_pure

end

section

variable {deeds : List (Deed (Except Failure τ))} {g : Guard} {codec : Codec τ} {key : String} {origin : KeyOrigin}

/-- Under the lock the operation comes right after a look that finds no result. A look that finds one ends the call, and
what stands behind the operation does not invoke it again. -/
theorem comesToWork_locked_iff :
    (g.locked codec key origin Attempt.work).ComesToWork deeds ↔ FoundOpen g key origin deeds := by
  unfold Guard.locked
  refine Iff.trans Attempt.comesToWork_bind ?_
  constructor
  · rintro (before | ⟨found, look, rest, looked, onward, rfl⟩)
    · exact absurd before comesToWork_kept
    · match found with
      | some value =>
        exact absurd onward (Attempt.not_comesToWork_bind (fun _ => Attempt.comesToWork_ofResult)
          fun _ _ => Attempt.comesToWork_pure)
      | none =>
        rcases Attempt.comesToWork_bind.mp onward with atWork | ⟨result, _, _, _, after, _⟩
        · obtain rfl := Attempt.comesToWork_work.mp atWork
          rw [List.append_nil]
          exact wins_kept_none_iff.mp looked
        · refine absurd after (Attempt.not_comesToWork_bind (fun _ => Attempt.comesToWork_ofResult) fun value _ => ?_)
          refine Attempt.not_comesToWork_bind (fun _ => comesToWork_resolve) fun resolution _ => ?_
          cases resolution with
          | stored => exact Attempt.comesToWork_pure
          | alreadyResolved other =>
            exact Attempt.not_comesToWork_bind (fun _ => Attempt.comesToWork_ofResult)
              fun _ _ => Attempt.comesToWork_pure
  · intro open'
    refine .inr ⟨none, deeds, [], wins_kept_none_iff.mpr open', ?_, (List.append_nil _).symm⟩
    exact Attempt.comesToWork_bind.mpr (.inl (Attempt.comesToWork_work.mpr rfl))

/-- On an idempotent route the operation comes after a look, the lock and another look. This is the composition of the
laws for each part: neither the looks nor the lock come to an operation by themselves. -/
theorem comesToWork_once_iff :
    (g.once codec key origin Attempt.work).ComesToWork deeds ↔
      ∃ look token again, FoundOpen g key origin look ∧ FoundOpen g key origin again ∧
        deeds = look ++ .named token :: .called (.setIfAbsent (lockKey key) token g.lockLife) (.ok true) :: again := by
  unfold Guard.once
  refine Iff.trans Attempt.comesToWork_bind ?_
  constructor
  · rintro (before | ⟨found, look, rest, looked, onward, rfl⟩)
    · exact absurd before comesToWork_kept
    · match found with
      | some value =>
        exact absurd onward (Attempt.not_comesToWork_bind (fun _ => Attempt.comesToWork_ofResult)
          fun _ _ => Attempt.comesToWork_pure)
      | none =>
        rcases Attempt.comesToWork_bind.mp onward with before | ⟨lease, tried, rest, acquired, after, rfl⟩
        · exact absurd before comesToWork_acquire
        · cases lease with
          | none => exact absurd after Attempt.comesToWork_throw
          | some lease =>
            obtain ⟨token, rfl, rfl⟩ := wins_acquire_iff.mp acquired
            rcases Attempt.comesToWork_bind.mp after with inside | ⟨outcome, _, _, _, returning, _⟩
            · have again := comesToWork_locked_iff.mp
                (Attempt.comesToWork_holding.mp (Attempt.comesToWork_caught.mp inside))
              exact ⟨look, token, rest, wins_kept_none_iff.mp looked, again, rfl⟩
            · exact absurd returning (Attempt.not_comesToWork_bind (fun _ => comesToWork_release)
                fun _ _ => Attempt.comesToWork_ofResult)
  · rintro ⟨look, token, again, looked, lookedAgain, rfl⟩
    refine .inr ⟨none, look, _, wins_kept_none_iff.mpr looked, ?_, rfl⟩
    refine Attempt.comesToWork_bind.mpr (.inr ⟨some ⟨key, token⟩, [_, _], again, ?_, ?_, rfl⟩)
    · exact wins_acquire_iff.mpr ⟨token, rfl, rfl⟩
    · exact Attempt.comesToWork_bind.mpr (.inl (Attempt.comesToWork_caught.mpr
        (Attempt.comesToWork_holding.mpr (comesToWork_locked_iff.mpr lookedAgain))))

end

/-! The whole call. -/

/-- A result carries the admission of the call, whatever the operation is: admission comes first, and every way to a
result hands on what it gave. -/
theorem admitted_of_run {deeds : List (Deed ω)} {g : Guard} {codec : Codec τ} {i : Invocation} {operation : Attempt ω τ}
    {guarded : Guarded τ} (wins : (g.run codec i operation).Wins deeds guarded) :
    ∃ first, first <+: deeds ∧ (g.throttle.pass i.bucket i.policy : Attempt ω _).Wins first guarded.admission := by
  obtain ⟨admission, first, rest, admitted, onward, rfl⟩ := Attempt.wins_bind.mp wins
  refine ⟨first, List.prefix_append _ _, ?_⟩
  suffices same : guarded.admission = admission from same ▸ admitted
  cases route : i.policy.origin with
  | none =>
    simp only [route] at onward
    obtain ⟨_, _, _, _, ended, _⟩ := Attempt.wins_bind.mp onward
    obtain ⟨_, rfl⟩ := Attempt.wins_pure.mp ended
    rfl
  | some origin =>
    simp only [route] at onward
    cases presented : i.key with
    | none =>
      simp only [presented] at onward
      exact absurd onward Attempt.wins_throw
    | some key =>
      simp only [presented] at onward
      obtain ⟨_, _, _, _, after, _⟩ := Attempt.wins_bind.mp onward
      obtain ⟨_, _, _, _, ended, _⟩ := Attempt.wins_bind.mp after
      obtain ⟨_, rfl⟩ := Attempt.wins_pure.mp ended
      rfl

section

variable {g : Guard} {passage : Passage τ} {first deeds : List (Deed (Except Failure τ))}
  {left : Program (Except Failure τ) (Except Failure (Guarded τ))}

/-- A passage comes to its operation exactly through the gate. Both directions go by the two kinds of route: where it is
not idempotent the operation follows admission at once, and where it is there follow a valid key, two looks and the
lock. -/
theorem comesToWork_passage_iff :
    (passage.program g).ComesToWork deeds ↔ ∃ admission, Gate g passage deeds admission := by
  have parts : (passage.program g).ComesToWork deeds ↔ _ := Attempt.comesToWork_bind
  refine parts.trans ?_
  constructor
  · rintro (before | ⟨admission, first, rest, admitted, onward, rfl⟩)
    · exact absurd before comesToWork_pass
    · refine ⟨admission, ?_⟩
      cases route : passage.policy.origin with
      | none =>
        simp only [route] at onward
        rcases Attempt.comesToWork_bind.mp onward with atWork | ⟨_, _, _, _, after, _⟩
        · obtain rfl := Attempt.comesToWork_work.mp atWork
          rw [List.append_nil]
          exact .unguarded first admission admitted route
        · exact absurd after Attempt.comesToWork_pure
      | some origin =>
        simp only [route] at onward
        cases presented : passage.key with
        | none =>
          simp only [presented] at onward
          exact absurd onward Attempt.comesToWork_throw
        | some key =>
          simp only [presented] at onward
          rcases Attempt.comesToWork_bind.mp onward with before | ⟨_, checked, rest, check, after, rfl⟩
          · exact absurd before comesToWork_checkKey
          · obtain ⟨valid, rfl⟩ := wins_checkKey_iff.mp check
            rcases Attempt.comesToWork_bind.mp after with inside | ⟨_, _, _, _, ended, _⟩
            · obtain ⟨look, token, again, looked, lookedAgain, rfl⟩ := comesToWork_once_iff.mp inside
              rw [List.nil_append, ← List.append_assoc]
              exact .guarded first look again admission origin key token admitted route presented valid looked
                lookedAgain
            · exact absurd ended Attempt.comesToWork_pure
  · rintro ⟨admission, gate⟩
    refine .inr ⟨admission, ?_⟩
    cases gate with
    | unguarded _ _ admitted route =>
      refine ⟨deeds, [], admitted, ?_, (List.append_nil _).symm⟩
      simp only [route]
      exact Attempt.comesToWork_bind.mpr (.inl (Attempt.comesToWork_work.mpr rfl))
    | guarded first look again _ origin key token admitted route presented valid looked lookedAgain =>
      refine ⟨first, _, admitted, ?_, List.append_assoc _ _ _⟩
      simp only [route, presented]
      refine Attempt.comesToWork_bind.mpr (.inr ⟨(), [], _, wins_checkKey_iff.mpr ⟨valid, rfl⟩, ?_, rfl⟩)
      exact Attempt.comesToWork_bind.mpr (.inl (comesToWork_once_iff.mpr ⟨look, token, again, looked, lookedAgain, rfl⟩))

/-- The operation was invoked when these deeds were done: it has run since, or it runs now. -/
def InvokedAfter (before deeds : List (Deed (Except Failure τ)))
    (left : Program (Except Failure τ) (Except Failure (Guarded τ))) : Prop :=
  (deeds = before ∧ left.AtWork) ∨ ∃ answer after, deeds = before ++ .worked answer :: after

/-- How the operation of a passage is guarded, after any deeds and with any part of the passage left. -/
structure Gated (g : Guard) (passage : Passage τ) (deeds : List (Deed (Except Failure τ)))
    (left : Program (Except Failure τ) (Except Failure (Guarded τ))) : Prop where
  /-- It is invoked once at most. -/
  once : ∀ before before', InvokedAfter before deeds left → InvokedAfter before' deeds left → before = before'
  /-- It is invoked behind the gate only. Of the calls before it none has failed but that of a bucket that could not
  be asked, where requests go on openly; and that is when the admission is called degraded. -/
  behind : ∀ before, InvokedAfter before deeds left → ∃ admission, Gate g passage before admission ∧
    (admission.degraded = true ↔ ∃ reason, .called passage.charge (.error (.storeUnavailable reason)) ∈ before) ∧
      ∀ c why, .called c (.error why) ∈ before →
        c = passage.charge ∧ (∃ reason, why = .storeUnavailable reason) ∧ g.throttle.onOutage = .openly
  /-- On a route that is not idempotent it is invoked as soon as the passage is admitted. -/
  always : passage.policy.origin = none → ∀ first admission, Admitted g passage first admission → first <+: deeds →
    InvokedAfter first deeds left
  /-- On such a route no record and no lock is touched. -/
  apart : passage.policy.origin = none → ∀ deed ∈ deeds, ∀ c, deed.call? = some c → ∀ key,
    c.key? ≠ some (recordKey key) ∧ c.key? ≠ some (lockKey key)
  /-- The result tells how the passage was admitted. -/
  told : ∀ guarded, left = .done (.ok guarded) → ∃ first, first <+: deeds ∧
    Admitted g passage first guarded.admission ∧ (guarded.admission.degraded = true ↔
      ∃ reason, first = [.called passage.charge (.error (.storeUnavailable reason))])

/-- An admission is a single call. If that has failed, the store could not be reached, requests go on openly and the
admission is degraded. -/
theorem Admitted.charged {admission : Admission} (admitted : Admitted g passage first admission) :
    ∃ reply, first = [.called passage.charge reply] ∧
      (∀ why, reply = .error why → (∃ reason, why = .storeUnavailable reason) ∧ g.throttle.onOutage = .openly) ∧
        (admission.degraded = true ↔ ∃ reason, reply = .error (.storeUnavailable reason)) := by
  rcases charged_of_pass admitted with ⟨grant, rfl, -, whole⟩ | ⟨reason, rfl, openly, degraded⟩
  · refine ⟨.ok grant, rfl, nofun, ?_⟩
    rw [whole]
    constructor
    · intro is
      cases is
    · rintro ⟨reason, is⟩
      cases is
  · refine ⟨.error (.storeUnavailable reason), rfl, fun why is => ?_, fun _ => ⟨reason, rfl⟩, fun _ => degraded⟩
    cases is
    exact ⟨⟨reason, rfl⟩, openly⟩

/-- A look that finds no result consists of calls at the record that were answered; a failed call would have ended it. -/
theorem FoundOpen.answered {key : String} {origin : KeyOrigin} {look : List (Deed ω)}
    (looked : FoundOpen g key origin look) {deed : Deed ω} (done : deed ∈ look) :
    ∃ c reply, deed = .called c (.ok reply) := by
  cases looked with
  | pending text reads =>
    rw [List.mem_singleton.mp done]
    exact ⟨_, _, rfl⟩
  | unseen client created =>
    rcases List.mem_cons.mp done with rfl | again
    · exact ⟨_, _, rfl⟩
    · rw [List.mem_singleton.mp again]
      exact ⟨_, _, rfl⟩

/-- Every deed before the operation, but for the admission's own, is a call that was answered or a name that was drawn.
Hence a failure before the operation can only be one that admission passed over. -/
theorem Gate.answered {admission : Admission} {before : List (Deed (Except Failure τ))}
    (gate : Gate g passage before admission) :
    ∃ first, Admitted g passage first admission ∧ first ⊆ before ∧ ∀ deed ∈ before,
      deed ∈ first ∨ (∃ c reply, deed = .called c (.ok reply)) ∨ ∃ name, deed = .named name := by
  cases gate with
  | unguarded _ _ admitted route => exact ⟨before, admitted, List.Subset.refl _, fun deed done => .inl done⟩
  | guarded first look again _ origin key token admitted route presented valid looked lookedAgain =>
    refine ⟨first, admitted, ?_, fun deed done => ?_⟩
    · rw [List.append_assoc]
      exact List.subset_append_left _ _
    · simp only [List.mem_append, List.mem_cons] at done
      rcases done with (early | seen) | rfl | rfl | seenAgain
      · exact .inl early
      · exact .inr (.inl (looked.answered seen))
      · exact .inr (.inr ⟨token, rfl⟩)
      · exact .inr (.inl ⟨_, _, rfl⟩)
      · exact .inr (.inl (lookedAgain.answered seenAgain))

/-- The operation has not run before it is invoked: the admission's own deed is a call, and all others are answered
calls or names. -/
theorem Gate.notWorked {admission : Admission} {before : List (Deed (Except Failure τ))}
    (gate : Gate g passage before admission) (answer : Except Failure τ) : .worked answer ∉ before := by
  intro worked
  obtain ⟨first, admitted, -, parts⟩ := gate.answered
  obtain ⟨reply, rfl, -⟩ := admitted.charged
  rcases parts _ worked with early | ⟨c, reply, is⟩ | ⟨name, is⟩
  · cases List.mem_singleton.mp early
  · cases is
  · cases is

/-- Which calls before the operation have failed: at most the one that charges the bucket, if the store could not be
reached and requests go on openly, and the admission is degraded exactly in that case. -/
theorem Gate.failed {admission : Admission} {before : List (Deed (Except Failure τ))}
    (gate : Gate g passage before admission) :
    (admission.degraded = true ↔ ∃ reason, .called passage.charge (.error (.storeUnavailable reason)) ∈ before) ∧
      ∀ c why, .called c (.error why) ∈ before →
        c = passage.charge ∧ (∃ reason, why = .storeUnavailable reason) ∧ g.throttle.onOutage = .openly := by
  obtain ⟨first, admitted, within, parts⟩ := gate.answered
  obtain ⟨reply, rfl, passedOver, degraded⟩ := admitted.charged
  have charged {c : Call} {why : Failure} (failed : .called c (.error why) ∈ before) :
      (.called c (.error why) : Deed (Except Failure τ)) = .called passage.charge reply := by
    rcases parts _ failed with early | ⟨c', reply', is⟩ | ⟨name, is⟩
    · exact List.mem_singleton.mp early
    · cases is
    · cases is
  refine ⟨degraded.trans ⟨?_, ?_⟩, fun c why failed => ?_⟩
  · rintro ⟨reason, rfl⟩
    exact ⟨reason, within List.mem_cons_self⟩
  · rintro ⟨reason, failed⟩
    cases charged failed
    exact ⟨reason, rfl⟩
  · cases charged failed
    exact ⟨rfl, passedOver why rfl⟩

/-- Where the operation was invoked the passage had come to it, since the deeds up to there are those of the same
program, cut at its operation. -/
theorem InvokedAfter.comesToWork {p : Program (Except Failure τ) (Except Failure (Guarded τ))}
    {before : List (Deed (Except Failure τ))} (invoked : InvokedAfter before deeds left) (leads : p.LeadsTo deeds left) :
    p.ComesToWork before := by
  rcases invoked with ⟨rfl, atWork⟩ | ⟨answer, after, rfl⟩
  · exact ⟨left, leads, atWork⟩
  · exact leads.comesToWork

/-- Two places where the operation was invoked are one, if it has not run before either. Otherwise one place would stand
before the other, and the run at the earlier one would be among the deeds before the later. -/
theorem InvokedAfter.unique {before before' : List (Deed (Except Failure τ))}
    (invoked : InvokedAfter before deeds left) (invoked' : InvokedAfter before' deeds left)
    (unworked : ∀ answer, .worked answer ∉ before) (unworked' : ∀ answer, .worked answer ∉ before') :
    before = before' := by
  rcases invoked with ⟨rfl, -⟩ | ⟨answer, after, rfl⟩
  · rcases invoked' with ⟨is, -⟩ | ⟨answer, after, is⟩
    · exact is
    · exact absurd (is ▸ List.mem_append_right _ List.mem_cons_self) (unworked answer)
  · rcases invoked' with ⟨is, -⟩ | ⟨answer', after', is⟩
    · exact absurd (is ▸ List.mem_append_right _ List.mem_cons_self) (unworked' answer)
    · rcases List.append_eq_append_iff.mp is with ⟨between, rfl, onward⟩ | ⟨between, rfl, onward⟩
      · cases between with
        | nil => exact (List.append_nil _).symm
        | cons deed between =>
          cases onward
          exact absurd (List.mem_append_right _ List.mem_cons_self) (unworked' answer)
      · cases between with
        | nil => exact List.append_nil _
        | cons deed between =>
          cases onward
          exact absurd (List.mem_append_right _ List.mem_cons_self) (unworked answer')

/-- On a route that is not idempotent only the bucket is asked: after admission there is the operation, and what it
answers is handed on. -/
theorem asksOnly_unguarded (route : passage.policy.origin = none) :
    (passage.program g).AsksOnly (· = passage.charge) := by
  refine Program.AsksOnly.bind asksOnly_pass fun outcome => ?_
  cases outcome with
  | error why => exact Program.asksOnly_done
  | ok admission =>
    change Program.AsksOnly _ (ExceptT.run _)
    simp only [route]
    refine Program.AsksOnly.bind (Program.asksOnly_work fun _ => Program.asksOnly_done) fun outcome => ?_
    cases outcome <;> exact Program.asksOnly_done

/-- A result carries the admission of its passage: `admitted_of_run` for the operation that a passage has. -/
theorem admitted_of_wins {guarded : Guarded τ}
    (ends : (passage.program g).LeadsTo deeds (.done (.ok guarded))) :
    ∃ first, first <+: deeds ∧ Admitted g passage first guarded.admission :=
  admitted_of_run ends

/-- Whatever a passage has done, its operation is guarded. That it comes behind the gate is `comesToWork_passage_iff`;
that it runs once holds because no run stands before the gate; what the result tells is its admission's. -/
theorem gated_of_leadsTo (leads : (passage.program g).LeadsTo deeds left) : Gated g passage deeds left := by
  have gate {before : List (Deed (Except Failure τ))} (invoked : InvokedAfter before deeds left) :
      ∃ admission, Gate g passage before admission := comesToWork_passage_iff.mp (invoked.comesToWork leads)
  refine ⟨?once, ?behind, ?always, ?apart, ?told⟩
  case once =>
    intro before before' invoked invoked'
    obtain ⟨_, behind⟩ := gate invoked
    obtain ⟨_, behind'⟩ := gate invoked'
    exact invoked.unique invoked' behind.notWorked behind'.notWorked
  case behind =>
    intro before invoked
    obtain ⟨admission, behind⟩ := gate invoked
    exact ⟨admission, behind, behind.failed⟩
  case always =>
    rintro route first admission admitted ⟨rest, rfl⟩
    obtain ⟨q, come, held, next, rfl⟩ :=
      comesToWork_passage_iff.mpr ⟨admission, .unguarded first admission admitted route⟩
    cases come.onward leads with
    | start => exact .inl ⟨List.append_nil _, held, next, rfl⟩
    | worked _ _ answer after _ _ => exact .inr ⟨answer, after, rfl⟩
  case apart =>
    intro route deed done c made
    rw [asksOnly_unguarded route deeds left leads deed done c made]
    exact bucket_elsewhere rfl
  case told =>
    rintro guarded rfl
    obtain ⟨first, before, admitted⟩ := admitted_of_wins leads
    refine ⟨first, before, admitted, ?_⟩
    obtain ⟨reply, rfl, -, degraded⟩ := admitted.charged
    refine degraded.trans (exists_congr fun reason => ?_)
    constructor
    · rintro rfl
      rfl
    · intro is
      cases is
      rfl

end

/-- Whatever others do in between, in whatever state the store is, and whichever calls fail: the operation of a passage
runs at most once, behind the gate only, and on a route that is not idempotent as soon as the passage is admitted. -/
theorem operations_run_behind_the_gate [TokenNumber α] {k : String}
    {w w' : Crowd α (Except Failure τ) (Except Failure (Guarded τ))} (g : Guard) (passage : Passage τ) (i : Nat)
    (caller : w.callers i = passage.program g) (nobody : w.past = [])
    (course : Crowd.Course k (fun _ _ _ => True) w w') :
    Gated g passage (Crowd.deedsOf i w'.past) (w'.callers i) := by
  have leads := course.leadsTo nobody i
  rw [caller] at leads
  exact gated_of_leadsTo leads

/-- That guard where requests go on openly while the store can not be reached. -/
def openGuard : Guard := { briefGuard with throttle := ⟨.zero, .openly⟩ }

/-- The first caller's bucket can not be asked. It looks its key up, takes the lock and looks again, while the second
caller comes and fails; then its operation runs. -/
def outage : List (Cue (Except Failure String)) :=
  [.fail 0 (.storeUnavailable "down"), .call 1, .call 0, .call 0, .name 0 "a", .fail 1 (.storeUnavailable "down"),
    .call 0, .call 0, .work 0 (.ok "paid"), .call 0, .call 0]

/-- In that run the first caller's operation runs once, behind a gate whose admission is degraded, because the call that
charged its bucket failed. -/
theorem operations_run_behind_the_gate_outage :
    ∃ w', (Crowd.atEmptyStore fun _ => (textVisit.passage "order-1").program openGuard).play "order-1"
        (fun _ _ _ => true) outage = some w' ∧
      ((w'.callers 0).won?.map fun guarded => (guarded.result, guarded.admission.degraded)) = some ("paid", true) ∧
      (∃ before admission answer after, Gate openGuard (textVisit.passage "order-1") before admission ∧
        Crowd.deedsOf 0 w'.past = before ++ .worked answer :: after) ∧
      ∃ reason, [.called (textVisit.passage "order-1").charge (.error (.storeUnavailable reason))] <+:
        Crowd.deedsOf 0 w'.past := by
  have played : ((Crowd.atEmptyStore fun _ => (textVisit.passage "order-1").program openGuard).play "order-1"
      (fun _ _ _ => true) outage).map (fun w =>
        ((w.callers 0).won?.map fun guarded => (guarded.result, guarded.admission.degraded),
          (Crowd.deedsOf 0 w.past).any fun deed => deed matches .worked _)) =
      some (some ("paid", true), true) := by decide +kernel
  obtain ⟨w', is, shown⟩ := Option.map_eq_some_iff.mp played
  obtain ⟨won, ran⟩ := Prod.mk.inj shown
  have gated := operations_run_behind_the_gate openGuard (textVisit.passage "order-1") 0 rfl rfl
    (Crowd.course_of_play (fun _ _ _ _ => trivial) is)
  refine ⟨w', is, won, ?_, ?_⟩
  · obtain ⟨deed, done, worked⟩ := List.any_eq_true.mp ran
    cases deed with
    | worked answer =>
      obtain ⟨before, after, parts⟩ := List.append_of_mem done
      obtain ⟨admission, gate, -⟩ := gated.behind before (.inr ⟨answer, after, parts⟩)
      exact ⟨before, admission, answer, after, gate, parts⟩
    | _ => cases worked
  · obtain ⟨guarded, result, same⟩ := Option.map_eq_some_iff.mp won
    obtain ⟨-, degraded⟩ := Prod.mk.inj same
    obtain ⟨first, before, -, charged⟩ := gated.told guarded (Program.done_of_won result)
    obtain ⟨reason, rfl⟩ := charged.mp degraded
    exact ⟨reason, before⟩

end Turnstile
