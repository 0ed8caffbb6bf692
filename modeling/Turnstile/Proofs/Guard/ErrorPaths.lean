import Turnstile.Proofs.Guard.Alone

/-!
Error paths leave the key as it was.

A guarded call writes the placeholder of its key and takes the key's lock before it knows how it ends. Where it has the
store to itself it ends in one of few ways. It is refused and nothing is written; the key is settled and nothing is
written; somebody holds the lock, and at most a new key was issued; or the operation is invoked once and the lock is
given back, whatever it answers. If the operation fails, the record stays as it was before it, so that the key can be
tried again.

Other callers may have done anything before the call, and the store may hold whatever they left. How long locks live
does not matter: a lock that has expired while the operation ran is gone as well.
-/

namespace Turnstile

variable {α β τ : Type} [TokenNumber α]

/-! The operation. -/

/-- The failures of reading what is kept and of keeping a result. -/
def Failure.isFault : Failure → Bool
  | .unreadable _ | .internal _ => true
  | _ => false

/-- What the operation of a key that awaited it leads to. A failure is passed on and the record is left as it was; a
result is answered, unless it can not be kept. -/
inductive Led (g : Guard) (k : String) (o : Occasion τ) (s s' : Lone α) : Except Failure β → Prop
  | failed (why : Failure) (answer : o.answer = .error why) (now : s'.now = (o.worked s).now)
      (record : s'.shows (recordKey k) = (some (g.standing k s)).filter (·.isLive s'.now)) :
      Led g k o s s' (.error why)
  | gave (outcome : Except Failure β) (result : τ) (answer : o.answer = .ok result)
      (faults : ∀ why, outcome = .error why → why.isFault = true) : Led g k o s s' outcome

section

variable {o : Occasion τ} {s s₁ s' : Lone α} {g : Guard} {k : String} {origin : KeyOrigin}

/-- What can not be read is a fault: no other failure comes from reading a record. -/
theorem Registry.isFault_of_readRecord {text : Option String} {why : Failure} (read : readRecord text = .error why) :
    why.isFault = true := by
  cases text with
  | none => cases read
  | some text =>
    unfold readRecord at read
    cases is : Record.read text with
    | ok record =>
      simp only [is] at read
      cases read
    | error fault =>
      simp only [is] at read
      cases read
      rfl

/-- What has the wrong meaning is a fault as well, whether a result could not be encoded or a kept one not be decoded. -/
theorem isFault_of_meaning {meant : Except Json.Cause β} {why : Failure}
    (is : meant.mapError Guard.unreadable = .error why) : why.isFault = true := by
  cases meant with
  | ok b => cases is
  | error cause => cases is; rfl

/-- Only the record of the key has been touched since then, and what failed is at fault. -/
structure TouchesRecord (k : String) (s s' : Lone α) (outcome : Except Failure β) : Prop where
  sound : s'.store.Sound
  same : Lone.SameBut [recordKey k] s s'
  faults : ∀ why, outcome = .error why → why.isFault = true

omit [TokenNumber α] in
/-- What gives a value has not failed, so only the state counts. -/
theorem touchesRecord_ok (sound : s'.store.Sound) (same : Lone.SameBut [recordKey k] s s') (b : β) :
    TouchesRecord k s s' (.ok b) where
  sound := sound
  same := same
  faults := nofun

omit [TokenNumber α] in
/-- What fails for a fault fails for no other reason. -/
theorem touchesRecord_error {why : Failure} (sound : s'.store.Sound) (same : Lone.SameBut [recordKey k] s s')
    (fault : why.isFault = true) : TouchesRecord k s s' (.error why : Except Failure β) where
  sound := sound
  same := same
  faults := by
    rintro _ ⟨⟩
    exact fault

omit [TokenNumber α] in
/-- What touches the record only may be followed by what touches it only: the keys are the same, and a fault of the
first part is the outcome of both. -/
theorem TouchesRecord.bind {ω ρ : Type} {host : Host (Lone α) ω} {p : Attempt ω ρ} {f : ρ → Attempt ω β}
    (first : p.Brings host s₁ (TouchesRecord k s))
    (rest : ∀ s₂ b, s₂.store.Sound → Lone.SameBut [recordKey k] s s₂ → (f b).Brings host s₂ (TouchesRecord k s)) :
    (p >>= f).Brings host s₁ (TouchesRecord k s) := by
  refine Attempt.Brings.bind _ first ?_ ?_
  · rintro s₂ b ⟨sound, same, -⟩
    exact rest s₂ b sound same
  · rintro s₂ why ⟨sound, same, faults⟩
    exact touchesRecord_error sound same (faults why rfl)

/-- Resolving a key touches its record only, and fails for faults only. It is a chain of calls at the record, so it is
enough that each call and each look does, and `TouchesRecord.bind` joins them. -/
theorem brings_resolve (r : Registry) (value : Json.Value) (sound : s₁.store.Sound)
    (same : Lone.SameBut [recordKey k] s s₁) :
    (r.resolve k value : Attempt (Except Failure τ) Resolution).Brings o.host s₁ (TouchesRecord k s) := by
  -- The calls that write answer whether they did.
  have writes {s₁ : Lone α} (c : Call) (touched : c.key? = some (recordKey k)) (sound₁ : s₁.store.Sound)
      (same₁ : Lone.SameBut [recordKey k] s s₁) :
      (Attempt.ask c : Attempt (Except Failure τ) c.Reply).Brings o.host s₁ (TouchesRecord k s) :=
    Lone.brings_ask sound₁ touched fun s' reply _ _ sound' _ same => touchesRecord_ok sound' (same₁.trans same) reply
  have looks {s₁ : Lone α} (sound₁ : s₁.store.Sound) (same₁ : Lone.SameBut [recordKey k] s s₁) :
      (r.find? k : Attempt (Except Failure τ) (Option Record)).Brings o.host s₁ (TouchesRecord k s) := by
    refine (brings_find r sound₁).mono fun s' outcome found => ?_
    obtain ⟨sound', same', read⟩ := found
    cases outcome with
    | ok record => exact touchesRecord_ok sound' (same₁.trans same'.widen) record
    | error why => exact touchesRecord_error sound' (same₁.trans same'.widen) (Registry.isFault_of_readRecord read)
  unfold Registry.resolve
  refine TouchesRecord.bind (writes (.compareAndSet ..) rfl sound same) fun s₂ replaced sound₂ same₂ => ?_
  split
  · exact Attempt.brings_pure (touchesRecord_ok sound₂ same₂ _)
  · refine TouchesRecord.bind (looks sound₂ same₂) fun s₃ found sound₃ same₃ => ?_
    match found with
    | some (.resolved other) => exact Attempt.brings_pure (touchesRecord_ok sound₃ same₃ _)
    | some .pending => exact Attempt.brings_throw (touchesRecord_error sound₃ same₃ rfl)
    | none =>
      refine TouchesRecord.bind (writes (.setIfAbsent ..) rfl sound₃ same₃) fun s₄ created sound₄ same₄ => ?_
      split
      · exact Attempt.brings_pure (touchesRecord_ok sound₄ same₄ _)
      · refine TouchesRecord.bind (looks sound₄ same₄) fun s₅ again sound₅ same₅ => ?_
        match again with
        | some (.resolved other) => exact Attempt.brings_pure (touchesRecord_ok sound₅ same₅ _)
        | some .pending => exact Attempt.brings_throw (touchesRecord_error sound₅ same₅ rfl)
        | none => exact Attempt.brings_throw (touchesRecord_error sound₅ same₅ rfl)

/-- What is done with the result of an operation: it is encoded, the key is resolved, and another result that is kept is
decoded. Whatever fails in it is a fault. -/
theorem brings_keeping (codec : Codec τ) (result : τ) (sound : s.store.Sound) :
    (do
      let value ← Attempt.ofResult ((codec.encode result).mapError Guard.unreadable)
      match ← g.registry.resolve k value with
      | .stored => return (result, false)
      | .alreadyResolved other => return (← Guard.decoded codec other, true) :
        Attempt (Except Failure τ) (τ × Bool)).Brings o.host s (TouchesRecord k s) := by
  have codes {γ : Type} {coded : Except Json.Cause γ} {s₁ : Lone α} (sound₁ : s₁.store.Sound)
      (same₁ : Lone.SameBut [recordKey k] s s₁) :
      (Attempt.ofResult (coded.mapError Guard.unreadable) : Attempt (Except Failure τ) γ).Brings o.host s₁
        (TouchesRecord k s) :=
    Attempt.brings_ofResult { sound := sound₁, same := same₁, faults := fun why => isFault_of_meaning }
  refine TouchesRecord.bind (codes sound (Lone.SameBut.refl s)) fun s₁ value sound₁ same₁ => ?_
  refine TouchesRecord.bind (brings_resolve g.registry value sound₁ same₁) fun s₂ resolution sound₂ same₂ => ?_
  cases resolution with
  | stored => exact Attempt.brings_pure (touchesRecord_ok sound₂ same₂ _)
  | alreadyResolved other =>
    refine TouchesRecord.bind (codes sound₂ same₂) fun s₃ decoded sound₃ same₃ => ?_
    exact Attempt.brings_pure (touchesRecord_ok sound₃ same₃ _)

/-- The record of a key is not its lock, so what changes the lock leaves the record. -/
theorem recordKey_not_lock (k : String) : recordKey k ∉ [lockKey k] :=
  fun among => recordKey_ne_lockKey k k (List.mem_singleton.mp among)

/-- Nor is the lock the record, and so it goes the other way round. -/
theorem lockKey_not_record (k : String) : lockKey k ∉ [recordKey k] :=
  fun among => recordKey_ne_lockKey k k (List.mem_singleton.mp among).symm

/-- What is done under the lock of a key that awaits its operation: the operation is invoked once, and whoever had the
lock is not robbed of it. -/
theorem brings_locked (codec : Codec τ) (sound : s.store.Sound) (holdsText : s.HoldsText k)
    (awaits : Awaits g k origin s) :
    (g.locked codec k origin Attempt.work : Attempt (Except Failure τ) (τ × Bool)).Brings o.host s fun s' outcome =>
      s'.store.Sound ∧ s'.ran = s.ran + 1 ∧ (∀ token, s.LockedBy k token → s'.LockedBy k token) ∧
        Led g k o s s' outcome := by
  unfold Guard.locked
  refine Attempt.Brings.bind _ (brings_kept (g := g) origin sound holdsText) ?_ ?_
  · rintro s₁ found ⟨sound₁, looked⟩
    cases looked with
    | settled _ settled => exact absurd awaits settled
    | awaited _ same record =>
      have ran : (o.worked s₁).ran = s.ran + 1 := congrArg (· + 1) same.ran
      have now : (o.worked s₁).now = (o.worked s).now := o.worked_now same.now
      have lock {s' : Lone α} (after : Lone.SameBut [recordKey k] (o.worked s₁) s') (token : String)
          (ours : s.LockedBy k token) : s'.LockedBy k token := by
        refine ours.later ?_
        rw [after.elsewhere _ (lockKey_not_record k), after.now, o.worked_shows,
          same.elsewhere _ (lockKey_not_record k)]
      refine Attempt.Brings.bind (fun s' outcome => s' = o.worked s₁ ∧ outcome = o.answer)
        (Attempt.brings_work fun s' answer worked => ?_) ?_ ?_
      · cases worked
        exact ⟨rfl, rfl⟩
      · rintro s₂ result ⟨rfl, answer⟩
        refine (brings_keeping (s := o.worked s₁) codec result sound₁).mono fun s' outcome after => ?_
        obtain ⟨sound', after, faults⟩ := after
        exact ⟨sound', after.ran.trans ran, lock after, .gave outcome result answer.symm faults⟩
      · rintro s₂ why ⟨rfl, answer⟩
        refine ⟨sound₁, ran, lock (Lone.SameBut.refl _), .failed why answer.symm now ?_⟩
        rw [o.worked_shows, record]
        exact Store.filter_live (some (g.standing k s)) (same.now ▸ Nat.le_add_right _ _)
  · rintro s₁ why ⟨-, looked⟩
    cases looked with
    | settled _ settled => exact absurd awaits settled

end

/-! The ways to an end. -/

/-- How an admitted call with a valid key ends. -/
inductive Conclusion (g : Guard) (k : String) (origin : KeyOrigin) (o : Occasion τ) (s s' : Lone α) :
    Except Failure β → Prop
  | settled (outcome : Except Failure β) (settled : ¬ Awaits g k origin s) (same : Lone.SameBut [] s s') :
      Conclusion g k origin o s s' outcome
  /-- Somebody holds the lock. -/
  | busy (held : s.shows (lockKey k) ≠ none) (same : Lone.SameBut [recordKey k] s s') (awaits : Awaits g k origin s)
      (record : s'.shows (recordKey k) = (some (g.standing k s)).filter (·.isLive s.now)) :
      Conclusion g k origin o s s' (.error (.inProgress k))
  | worked (outcome : Except Failure β) (awaits : Awaits g k origin s) (sound : s'.store.Sound)
      (ran : s'.ran = s.ran + 1) (unlocked : s'.shows (lockKey k) = none) (led : Led g k o s s' outcome) :
      Conclusion g k origin o s s' outcome

section

variable {o : Occasion τ} {s s₁ s₂ s' : Lone α} {g : Guard} {k : String} {origin : KeyOrigin}

omit [TokenNumber α] in
/-- A key that was looked at while it awaited its operation still does. The look may have issued the key, and then the
record is the new one which was to be worked on anyway. -/
theorem Awaits.again (awaits : Awaits g k origin s) (now : s'.now = s.now)
    (record : s'.shows (recordKey k) = (some (g.standing k s)).filter (·.isLive s.now)) :
    g.standing k s' = g.standing k s ∧ Awaits g k origin s' ∧ s'.HoldsText k := by
  have standing : g.standing k s' = g.standing k s := by
    cases there : s'.shows (recordKey k) with
    | some e =>
      rw [there] at record
      rw [Guard.standing_of_some there]
      exact (Option.some.inj (Option.filter_eq_some_iff.mp record.symm).1).symm
    | none =>
      have nothing : s.shows (recordKey k) = none := by
        by_contra before
        exact before (Guard.filter_standing (g := g) before ▸ record ▸ there)
      rw [Guard.standing_of_none there, Guard.standing_of_none nothing, now]
  have still : Awaits g k origin s' := by
    refine { pending := standing ▸ awaits.pending, client := fun nothing => awaits.client ?_ }
    by_contra before
    exact before (Guard.filter_standing (g := g) before ▸ record ▸ nothing)
  refine ⟨standing, still, fun e there => ?_⟩
  obtain ⟨text, holds, -⟩ := awaits.pending
  rw [record] at there
  rw [← Option.some.inj (Option.filter_eq_some_iff.mp there).1, holds]
  rfl

omit [TokenNumber α] in
/-- What the operation led to is told between an earlier and a later moment, as long as the record is as it was. In this
way looks before it and the release of the lock behind it are left out. -/
theorem Led.within {outcome : Except Failure β} (led : Led g k o s₁ s₂ outcome) (now : s₁.now = s.now)
    (standing : g.standing k s₁ = g.standing k s) (now' : s'.now = s₂.now)
    (record : s'.shows (recordKey k) = s₂.shows (recordKey k)) : Led g k o s s' outcome := by
  cases led with
  | failed why answer after record' =>
    refine .failed why answer ?_ ?_
    · rw [now', after, o.worked_now now]
    · rw [record, record', standing, now']
  | gave _ result answer faults => exact .gave outcome result answer faults

/-- An admitted call with a valid key. A look settles it, or the lock is held, or it is got; then a second look finds
what the first one did, the operation runs, and the lock is given back whatever came of it. -/
theorem brings_once (codec : Codec τ) (origin : KeyOrigin) (sound : s.store.Sound) (holdsText : s.HoldsText k) :
    (g.once codec k origin Attempt.work : Attempt (Except Failure τ) (τ × Bool)).Brings o.host s fun s' outcome =>
      Conclusion g k origin o s s' outcome := by
  unfold Guard.once
  refine Attempt.Brings.bind _ (brings_kept (g := g) origin sound holdsText) ?_ ?_
  · rintro s₁ found ⟨sound₁, looked⟩
    cases looked with
    | settled _ settled same tells =>
      cases found with
      | none => exact absurd rfl tells
      | some value =>
        refine Attempt.Brings.bind (fun s' _ => s' = s₁) (Attempt.brings_ofResult rfl) ?_ ?_
        · rintro s' result rfl
          exact Attempt.brings_pure (.settled _ settled same)
        · rintro s' why rfl
          exact .settled _ settled same
    | awaited awaits same record =>
      obtain ⟨standing, awaits₁, holdsText₁⟩ := awaits.again same.now record
      refine Attempt.Brings.bind _ (brings_acquire (k := k) sound₁ g.lockLife) ?_ ?_
      · rintro s₂ lease ⟨sound₂, tried⟩
        cases tried with
        | held held same₂ =>
          refine Attempt.brings_throw (.busy ?_ (same.trans same₂.widen) awaits ?_)
          · rwa [← same.elsewhere _ (lockKey_not_record k)]
          · rw [same₂.elsewhere _ List.not_mem_nil, record]
        | taken free same₂ ours =>
          have shown : s₂.shows (recordKey k) = s₁.shows (recordKey k) := same₂.elsewhere _ (recordKey_not_lock k)
          have awaits₂ : Awaits g k origin s₂ := (Awaits.congr same₂.now shown).mpr awaits₁
          have holdsText₂ : s₂.HoldsText k := fun e there => holdsText₁ e (shown ▸ there)
          have standing₂ : g.standing k s₂ = g.standing k s := (Guard.standing_congr same₂.now shown).trans standing
          refine Attempt.Brings.caught _
            ((brings_locked (g := g) codec sound₂ holdsText₂ awaits₂).holding ⟨k, o.token⟩) ?_
          rintro s₃ outcome ⟨sound₃, ran₃, lock₃, led⟩
          refine Attempt.Brings.bind _ (brings_release sound₃ (lock₃ o.token ours)) ?_ ?_
          · rintro s₄ _ ⟨sound₄, same₄, unlocked, -⟩
            refine Attempt.brings_ofResult (.worked outcome awaits sound₄ ?_ unlocked ?_)
            · rw [same₄.ran, ran₃, same₂.ran, same.ran]
            · exact led.within (same₂.now.trans same.now) standing₂ same₄.now (same₄.elsewhere _ (recordKey_not_lock k))
          · rintro s₄ why ⟨-, -, -, is⟩
            cases is
      · rintro s₂ why ⟨-, tried⟩
        cases tried
  · rintro s₁ why ⟨-, looked⟩
    cases looked with
    | settled _ settled same => exact .settled _ settled same

end

/-! Whole calls. -/

/-- How a call on an idempotent route ends: it is refused before its key is looked up, or it goes on with it. -/
inductive Passage.Ends (g : Guard) (passage : Passage τ) (origin : KeyOrigin) (o : Occasion τ) (s s' : Lone α) :
    Except Failure (Guarded τ) → Prop
  | refused (why : Failure) (same : Lone.SameBut [passage.bucket.text] s s')
      (unable : (∀ mid admission, passage.admission g o s ≠ (mid, .finished (.ok admission))) ∨
        ∀ key, passage.key = some key → keyFault? key ≠ none) : Ends g passage origin o s s' (.error why)
  | admitted (mid : Lone α) (admission : Admission) (key : String) (outcome : Except Failure (Guarded τ))
      (passed : passage.admission g o s = (mid, .finished (.ok admission)))
      (same : Lone.SameBut [passage.bucket.text] s mid) (presented : passage.key = some key)
      (valid : keyFault? key = none) (concluded : Conclusion g key origin o mid s' outcome) :
      Ends g passage origin o s s' outcome

section

variable {o : Occasion τ} {s s₁ s' : Lone α} {g : Guard} {k : String} {origin : KeyOrigin}

omit [TokenNumber α] in
/-- A result is told in other words: which way a call went does not depend on them. -/
theorem Conclusion.map {γ : Type} {outcome : Except Failure β} (concluded : Conclusion g k origin o s s' outcome)
    (f : β → γ) : Conclusion g k origin o s s' (outcome.map f) := by
  cases concluded with
  | settled _ settled same => exact .settled _ settled same
  | busy held same awaits record => exact .busy held same awaits record
  | worked _ awaits sound ran unlocked led =>
    refine .worked _ awaits sound ran unlocked ?_
    cases led with
    | failed why answer now record => exact .failed why answer now record
    | gave _ result answer faults =>
      refine .gave _ result answer fun why is => ?_
      cases outcome with
      | ok b => cases is
      | error why' => cases is; exact faults why rfl

omit [TokenNumber α] in
/-- A bucket is neither the record of a key nor its lock, as the three kinds of keys begin differently. -/
theorem bucket_apart {passage : Passage τ} (key : String) :
    recordKey key ∉ [passage.bucket.text] ∧ lockKey key ∉ [passage.bucket.text] := by
  constructor
  · exact fun among => bucketKey_ne_recordKey _ _ _ _ (List.mem_singleton.mp among).symm
  · exact fun among => bucketKey_ne_lockKey _ _ _ _ (List.mem_singleton.mp among).symm

/-- A guarded call on an idempotent route that does not break down ends in one of the ways that `Passage.Ends` lists: it
is refused by its bucket or for its key, or it is admitted and concludes as `brings_once` says. -/
theorem ends_alone {passage : Passage τ} (route : passage.policy.origin = some origin)
    (distinct : s.store.entries.Distinct) (holdsText : ∀ key, passage.key = some key → s.HoldsText key)
    {outcome : Except Failure (Guarded τ)} (played : passage.alone g o s = (s', .finished outcome)) :
    passage.Ends g origin o s s' outcome := by
  have brings : (g.run passage.codec ⟨passage.bucket, passage.policy, passage.key⟩ Attempt.work :
      Attempt (Except Failure τ) (Guarded τ)).Brings o.host s (passage.Ends g origin o s) := by
    have admits : (g.throttle.pass passage.bucket passage.policy : Attempt (Except Failure τ) Admission).Brings o.host s
        fun mid outcome => passage.admission g o s = (mid, .finished outcome) ∧
          Lone.SameBut [passage.bucket.text] s mid ∧ ∀ admission, outcome = .ok admission → mid.store.Sound :=
      fun mid outcome played => ⟨played, brings_pass distinct mid outcome played⟩
    unfold Guard.run
    refine Attempt.Brings.bind _ admits ?_ ?_
    · rintro mid admission ⟨passed, same, whole⟩
      rw [route]
      cases presented : passage.key with
      | none =>
        refine Attempt.brings_throw (.refused _ same (.inr fun key is => ?_))
        rw [presented] at is
        cases is
      | some key =>
        refine Attempt.Brings.bind (fun s' outcome => s' = mid ∧ (outcome = .ok () ↔ keyFault? key = none)) ?_ ?_ ?_
        · unfold Registry.checkKey
          cases keyFault? key with
          | none => exact Attempt.brings_pure ⟨rfl, iff_of_true rfl rfl⟩
          | some fault => exact Attempt.brings_throw ⟨rfl, iff_of_false (by rintro ⟨⟩) (by rintro ⟨⟩)⟩
        · rintro s₁ _ ⟨rfl, valid⟩
          have holds : s₁.HoldsText key := by
            intro e there
            rw [same.elsewhere _ (bucket_apart key).1] at there
            exact holdsText key presented e there
          have tells {s' : Lone α} {outcome : Except Failure (τ × Bool)}
              (concluded : Conclusion g key origin o s₁ s' outcome) :
              passage.Ends g origin o s s' (outcome.map fun answer => ⟨answer.1, answer.2, admission⟩) :=
            .admitted s₁ admission key _ passed same presented (valid.mp rfl) (concluded.map _)
          have once := brings_once (o := o) (g := g) passage.codec origin (whole admission rfl) holds
          refine Attempt.Brings.bind _ once ?_ fun s' why concluded => tells concluded
          exact fun s' answer concluded => Attempt.brings_pure (tells concluded)
        · rintro s₁ why ⟨rfl, valid⟩
          refine .refused why same (.inr fun key' is => ?_)
          obtain rfl : key = key' := Option.some.inj (presented.symm.trans is)
          exact fun valid' => by cases valid.mpr valid'
    · rintro mid why ⟨passed, same, -⟩
      refine .refused why same (.inl fun mid' admission is => ?_)
      rw [passed] at is
      cases is
  exact brings s' outcome played

/-- A call that does not break down ends by itself, for its program is finite and every answer that it waits for is
given. -/
theorem finished_alone {passage : Passage τ} (whole : ∀ held why, (passage.alone g o s).2 ≠ .broke held why) :
    ∃ s' outcome, passage.alone g o s = (s', .finished outcome) :=
  Program.finishes (passage.program g) (fun s => ⟨o.worked s, o.answer, rfl⟩) s whole

/-- Whoever is admitted with a key that awaits its operation and that nobody has locked invokes its operation. All other
ways to an end are excluded: the call is neither refused nor settled, and the lock is not held. -/
theorem invokes_alone {passage : Passage τ} (route : passage.policy.origin = some origin)
    (distinct : s.store.entries.Distinct) (presented : passage.key = some k) (valid : keyFault? k = none)
    (holdsText : s.HoldsText k) (awaits : Awaits g k origin s) (unlocked : s.shows (lockKey k) = none)
    (admitted : ∃ mid admission, passage.admission g o s = (mid, .finished (.ok admission)))
    (whole : ∀ held why, (passage.alone g o s).2 ≠ .broke held why) :
    (passage.alone g o s).1.ran = s.ran + 1 := by
  obtain ⟨s', outcome, played⟩ := finished_alone whole
  have holds (key : String) (is : passage.key = some key) : s.HoldsText key := by
    obtain rfl : k = key := Option.some.inj (presented.symm.trans is)
    exact holdsText
  rw [played]
  cases ends_alone route distinct holds played with
  | refused why same unable =>
    obtain ⟨mid, admission, passed⟩ := admitted
    rcases unable with denied | invalid
    · exact absurd passed (denied mid admission)
    · exact absurd valid (invalid k presented)
  | admitted mid admission key _ passed same presented' _ concluded =>
    obtain rfl : k = key := Option.some.inj (presented.symm.trans presented')
    cases concluded with
    | settled _ settled =>
      exact absurd ((Awaits.congr same.now (same.elsewhere _ (bucket_apart k).1)).mpr awaits) settled
    | busy held => exact absurd ((same.elsewhere _ (bucket_apart k).2).trans unlocked) held
    | worked _ _ _ ran => rw [ran, same.ran]

omit [TokenNumber α] in
/-- A key that is pending and unlocked awaits its operation later on: as long as the record lives, and after that where
clients bring their keys. -/
theorem awaits_later {e : Entry α} (there : s.shows (recordKey k) = some e) (pending : e.IsPending) {later : Moment}
    (ahead : s.now ≤ later) (soon : later < e.expires ∨ origin = .client) (ran : Nat) :
    Awaits g k origin ⟨s.store, later, ran⟩ ∧ (⟨s.store, later, ran⟩ : Lone α).HoldsText k := by
  have shown := s.shows_later ahead ran (recordKey k)
  rw [there, Option.filter_some] at shown
  obtain ⟨text, holds, reads⟩ := pending
  by_cases live : e.isLive later = true
  · rw [if_pos live] at shown
    have holdsText : (⟨s.store, later, ran⟩ : Lone α).HoldsText k := by
      intro e' there'
      rw [shown] at there'
      rw [← Option.some.inj there', holds]
      rfl
    refine ⟨(awaits_iff holdsText).mpr (.inl ?_), holdsText⟩
    rw [shown, Option.bind_some]
    exact readRecord_pending.mpr ⟨text, holds, reads⟩
  · rw [if_neg live] at shown
    have holdsText : (⟨s.store, later, ran⟩ : Lone α).HoldsText k := by
      intro e' there'
      rw [shown] at there'
      cases there'
    have client : origin = .client := soon.resolve_left fun before => live (decide_eq_true before)
    exact ⟨(awaits_iff holdsText).mpr (.inr ⟨shown, client⟩), holdsText⟩

end

/-- The failures that a call is refused with: its bucket, its limit or its key does not let it through. -/
def Failure.isRefusal : Failure → Bool
  | .rateLimited _ | .misconfigured _ | .missingKey | .invalidKey _ | .unknownKey _ => true
  | _ => false

/-- A refusal is not a fault of what is kept or of the operation's result. -/
theorem Failure.not_isFault_of_isRefusal {why : Failure} (refusal : why.isRefusal = true) : why.isFault = false := by
  cases why <;> first | rfl | cases refusal

/-- The operation was not invoked, no time has passed, and every lock and every other key's record shows as before. -/
structure Lone.Spared (k : String) (s s' : Lone α) : Prop where
  ran : s'.ran = s.ran
  now : s'.now = s.now
  locks : ∀ key, s'.shows (lockKey key) = s.shows (lockKey key)
  records : ∀ key, key ≠ k → s'.shows (recordKey key) = s.shows (recordKey key)

section

variable {o : Occasion τ} {s s' : Lone α} {g : Guard} {k : String} {origin : KeyOrigin}

omit [TokenNumber α] in
/-- Whatever touches a bucket and the record of a key spares the rest: all locks and the records of all other keys. -/
theorem spared_of_same {passage : Passage τ} (same : Lone.SameBut [passage.bucket.text, recordKey k] s s') :
    Lone.Spared k s s' where
  ran := same.ran
  now := same.now
  locks key := by
    refine same.elsewhere _ fun among => ?_
    rcases List.mem_cons.mp among with is | among
    · exact bucketKey_ne_lockKey _ _ _ _ is.symm
    · exact recordKey_ne_lockKey k key (List.mem_singleton.mp among).symm
  records key other := by
    refine same.elsewhere _ fun among => ?_
    rcases List.mem_cons.mp among with is | among
    · exact bucketKey_ne_recordKey _ _ _ _ is.symm
    · exact other (recordKey_injective (List.mem_singleton.mp among))

omit [TokenNumber α] in
/-- Whatever touches a bucket only leaves the record of the key as well. -/
theorem spared_of_bucket {passage : Passage τ} (same : Lone.SameBut [passage.bucket.text] s s') :
    s.Spared k s' ∧ s'.shows (recordKey k) = s.shows (recordKey k) :=
  ⟨spared_of_same (same.mono (List.cons_subset_cons _ (List.nil_subset _))), same.elsewhere _ (bucket_apart k).1⟩

variable {passage : Passage τ} {outcome : Except Failure (Guarded τ)}

/-- A call that is refused has changed nothing at any key, unless its operation refuses. A refusal comes from the
bucket, from the key or from a settled look, and none of these writes; a fault is none. -/
theorem Passage.Ends.of_refusal (ends : passage.Ends g origin o s s' outcome) {why : Failure}
    (told : outcome = .error why) (refusal : why.isRefusal = true) :
    (s'.ran = s.ran + 1 ∧ o.answer = .error why) ∨
      s.Spared k s' ∧ s'.shows (recordKey k) = s.shows (recordKey k) := by
  cases ends with
  | refused _ same => exact .inr (spared_of_bucket same)
  | admitted mid admission key _ _ same _ _ concluded =>
    cases concluded with
    | settled _ _ same' => exact .inr (spared_of_bucket (same.trans same'.widen))
    | busy =>
      cases told
      cases refusal
    | worked _ _ _ ran _ led =>
      cases led with
      | failed why' answer =>
        cases told
        exact .inl ⟨ran.trans (congrArg (· + 1) same.ran), answer⟩
      | gave _ result _ faults =>
        have fault := faults why told
        rw [Failure.not_isFault_of_isRefusal refusal] at fault
        cases fault

/-- A call that is told that its key is in progress has issued a new key at most, unless its operation says so. It found
the lock held, and the look before that may have created the record. -/
theorem Passage.Ends.of_inProgress (ends : passage.Ends g origin o s s' outcome)
    (presented : ∀ key, passage.key = some key → key = k) {key : String} (told : outcome = .error (.inProgress key)) :
    (s'.ran = s.ran + 1 ∧ o.answer = .error (.inProgress key)) ∨
      s.Spared k s' ∧ (s'.shows (recordKey k) = s.shows (recordKey k) ∨ origin = .client ∧
        s.shows (recordKey k) = none ∧ s'.shows (recordKey k) = some (g.registry.entry s.now .pending)) := by
  cases ends with
  | refused _ same =>
    obtain ⟨spared, kept⟩ := spared_of_bucket (k := k) same
    exact .inr ⟨spared, .inl kept⟩
  | admitted mid admission key' _ _ same is _ concluded =>
    obtain rfl := presented key' is
    have shown : mid.shows (recordKey key') = s.shows (recordKey key') := same.elsewhere _ (bucket_apart key').1
    cases concluded with
    | settled _ _ same' =>
      obtain ⟨spared, kept⟩ := spared_of_bucket (k := key') (same.trans same'.widen)
      exact .inr ⟨spared, .inl kept⟩
    | busy held same' awaits record =>
      have both : Lone.SameBut [passage.bucket.text, recordKey key'] s s' :=
        (same.mono (List.cons_subset_cons _ (List.nil_subset _))).trans (same'.mono (List.subset_cons_self _ _))
      refine .inr ⟨spared_of_same both, ?_⟩
      cases there : mid.shows (recordKey key') with
      | some e =>
        refine .inl ?_
        rw [record, Guard.filter_standing (by rw [there]; rintro ⟨⟩), shown]
      | none =>
        have nothing : s.shows (recordKey key') = none := shown.symm.trans there
        rw [Guard.standing_of_none there, same.now, Registry.filter_entry] at record
        rw [nothing, record]
        split
        · exact .inr ⟨awaits.client there, rfl, rfl⟩
        · exact .inl rfl
    | worked _ _ _ ran _ led =>
      cases led with
      | failed why answer =>
        cases told
        exact .inl ⟨ran.trans (congrArg (· + 1) same.ran), answer⟩
      | gave _ result _ faults => cases faults _ told

/-- How a call leaves its key if its operation has failed: nobody has locked it, and it is as pending as it was. -/
structure LeftPending (g : Guard) (k : String) (o : Occasion τ) (s s' : Lone α) : Prop where
  valid : keyFault? k = none
  sound : s'.store.Sound
  unlocked : s'.shows (lockKey k) = none
  now : s'.now = (o.worked s).now
  pending : (g.standing k s).IsPending
  record : s'.shows (recordKey k) = (some (g.standing k s)).filter (·.isLive s'.now)

/-- A call whose operation fails passes the failure on and leaves its key unlocked and as pending as it was. That the
operation was invoked excludes all ways but one, and on that one the failure is what it answered. -/
theorem Passage.Ends.of_failed (ends : passage.Ends g origin o s s' outcome)
    (presented : ∀ key, passage.key = some key → key = k) (ran : s'.ran ≠ s.ran) {why : Failure}
    (answer : o.answer = .error why) :
    outcome = .error why ∧ LeftPending g k o s s' := by
  cases ends with
  | refused _ same => exact absurd same.ran ran
  | admitted mid admission key _ _ same is valid concluded =>
    obtain rfl := presented key is
    have standing : g.standing key mid = g.standing key s :=
      Guard.standing_congr same.now (same.elsewhere _ (bucket_apart key).1)
    cases concluded with
    | settled _ _ same' => exact absurd (same'.ran.trans same.ran) ran
    | busy _ same' => exact absurd (same'.ran.trans same.ran) ran
    | worked _ awaits sound _ unlocked led =>
      cases led with
      | failed why' answer' after record =>
        obtain rfl : why' = why := Except.error.inj (answer'.symm.trans answer)
        refine ⟨rfl, ?_⟩
        exact {
          valid
          sound
          unlocked
          now := after.trans (o.worked_now same.now)
          pending := standing ▸ awaits.pending
          record := standing ▸ record }
      | gave _ result answer' =>
        rw [answer] at answer'
        cases answer'

end

/-- A guarded call that has the store to itself, on an idempotent route, with one key or none, after any course of
callers on errands about any keys. Unless a call of the store breaks down it ends by itself. If it is refused, nothing
is changed at any key, unless its operation refused it. If it is told that a key is in progress, at most a new key was
issued for it. If its operation fails, that failure is the outcome, the key is unlocked, and as long as the record lives
it is pending as it was, so that whoever is admitted with the key next has its operation invoked. -/
theorem error_paths_leave_the_key {w w' : Crowd α (Except Failure τ) (Except Failure (Answer τ))} {k : String}
    (g : Guard) (errands : Nat → Errand τ) (callers : ∀ i, w.callers i = (errands i).program g)
    (distinct : w.store.entries.Distinct) (free : w.store.live? w.now (recordKey k) = none)
    (course : Crowd.Course k (fun move _ _ => move.Spares (recordKey k)) w w')
    (passage : Passage τ) {origin : KeyOrigin} (route : passage.policy.origin = some origin)
    (presented : ∀ key, passage.key = some key → key = k) (o : Occasion τ)
    (whole : ∀ held why, (passage.alone g o w'.lone).2 ≠ .broke held why) :
    ∃ last outcome, passage.alone g o w'.lone = (last, .finished outcome) ∧
      (∀ why, outcome = .error why → why.isRefusal = true →
        (last.ran = 1 ∧ o.answer = .error why) ∨
          w'.lone.Spared k last ∧ last.shows (recordKey k) = w'.lone.shows (recordKey k)) ∧
      (∀ key, outcome = .error (.inProgress key) →
        (last.ran = 1 ∧ o.answer = .error (.inProgress key)) ∨
          w'.lone.Spared k last ∧ (last.shows (recordKey k) = w'.lone.shows (recordKey k) ∨
            origin = .client ∧ w'.lone.shows (recordKey k) = none ∧
              last.shows (recordKey k) = some (g.registry.entry w'.now .pending))) ∧
      ∀ why, last.ran ≠ 0 → o.answer = .error why →
        outcome = .error why ∧ last.shows (lockKey k) = none ∧
          ((o.worked w'.lone).now < (g.standing k w'.lone).expires →
            last.shows (recordKey k) = some (g.standing k w'.lone) ∧ (g.standing k w'.lone).IsPending ∧
              ∀ (next : Passage τ) (origin' : KeyOrigin) (o' : Occasion τ) (later : Moment),
                next.policy.origin = some origin' → next.key = some k → last.now ≤ later →
                (later < (g.standing k w'.lone).expires ∨ origin' = .client) →
                (∃ mid admission, next.admission g o' ⟨last.store, later, 0⟩ = (mid, .finished (.ok admission))) →
                (∀ held why, (next.alone g o' ⟨last.store, later, 0⟩).2 ≠ .broke held why) →
                (next.alone g o' ⟨last.store, later, 0⟩).1.ran = 1) := by
  obtain ⟨distinct', living, -⟩ := living_of_course g errands callers distinct free course
  have holdsText (key : String) (is : passage.key = some key) : w'.lone.HoldsText key := by
    obtain rfl := presented key is
    intro e there
    obtain ⟨-, time, record, rfl, -⟩ := living e there
    rfl
  obtain ⟨last, outcome, played⟩ := finished_alone whole
  refine ⟨last, outcome, played, ?_⟩
  have ends : passage.Ends g origin o w'.lone last outcome := ends_alone route distinct' holdsText played
  refine ⟨fun why told refusal => ?_, fun key told => ?_, fun why ran answer => ?_⟩
  · exact ends.of_refusal told refusal
  · exact ends.of_inProgress presented told
  · obtain ⟨told, left⟩ := ends.of_failed presented ran answer
    refine ⟨told, left.unlocked, fun lives => ?_⟩
    have live : (g.standing k w'.lone).isLive last.now = true := decide_eq_true (left.now ▸ lives)
    have record : last.shows (recordKey k) = some (g.standing k w'.lone) := by
      rw [left.record, Option.filter_some, if_pos live]
    refine ⟨record, left.pending, ?_⟩
    intro next origin' o' later route' presented' ahead soon admitted whole'
    obtain ⟨awaits, holdsText'⟩ := awaits_later (g := g) record left.pending ahead soon 0
    have unlocked' : (⟨last.store, later, 0⟩ : Lone α).shows (lockKey k) = none := by
      rw [last.shows_later ahead, left.unlocked]
      rfl
    exact invokes_alone route' left.sound.distinct presented' left.valid holdsText' awaits unlocked' admitted whole'

/-- Everybody issues one key. -/
def issuers : Nat → Errand String := fun _ => .issue "order-1"

/-- The operation takes two seconds and fails. -/
def failing : Occasion String := ⟨"token-1", 2000000000, .error (.internal "declined")⟩

/-- The operation gives a result at once. -/
def succeeding : Occasion String := ⟨"token-2", 0, .ok "paid"⟩

/-- In that run the operation fails under a key that was issued before; the key is left unlocked and pending, and the
next call with it runs its operation. -/
theorem error_paths_leave_the_key_failing :
    ∃ w' last, (Crowd.atEmptyStore fun i => (issuers i).program briefGuard).play "order-1"
        (fun move _ _ => decide (move.Spares (recordKey "order-1"))) [.call 0, .wait 1000] = some w' ∧
      (textVisit.passage "order-1").alone briefGuard failing w'.lone =
        (last, .finished (.error (.internal "declined"))) ∧
      last.shows (lockKey "order-1") = none ∧
      last.shows (recordKey "order-1") = some (briefGuard.standing "order-1" w'.lone) ∧
      ((textVisit.passage "order-1").alone briefGuard succeeding ⟨last.store, last.now, 0⟩).1.ran = 1 := by
  have played : ((Crowd.atEmptyStore fun i => (issuers i).program briefGuard).play "order-1"
      (fun move _ _ => decide (move.Spares (recordKey "order-1"))) [.call 0, .wait 1000]).map (fun w =>
        let first := (textVisit.passage "order-1").alone briefGuard failing w.lone
        let start : Lone Binary64 := ⟨first.1.store, first.1.now, 0⟩
        (first.2.isBreakdown, decide (first.1.ran = 0),
          decide ((failing.worked w.lone).now < (briefGuard.standing "order-1" w.lone).expires),
          ((textVisit.passage "order-1").admission briefGuard succeeding start).2.answer?.isSome,
          ((textVisit.passage "order-1").alone briefGuard succeeding start).2.isBreakdown)) =
      some (false, false, true, true, false) := by decide +kernel
  obtain ⟨w', is, shown⟩ := Option.map_eq_some_iff.mp played
  have sound (move : Move (Except Failure String)) (v v' : Scene Binary64 (Except Failure String))
      (passed : decide (move.Spares (recordKey "order-1")) = true) : move.Spares (recordKey "order-1") :=
    of_decide_eq_true passed
  obtain ⟨last, outcome, ended, -, -, failed⟩ := error_paths_leave_the_key briefGuard issuers (fun _ => rfl)
    Table.distinct_empty rfl (Crowd.course_of_play sound is) (textVisit.passage "order-1") rfl
    (fun key presented => (Option.some.inj presented).symm) failing (Exit.ne_broke (congrArg Prod.fst shown))
  simp only [ended, Prod.mk.injEq, decide_eq_true_eq, decide_eq_false_iff_not] at shown
  obtain ⟨-, ran, lives, admitted, second⟩ := shown
  obtain ⟨rfl, unlocked, pending⟩ := failed (.internal "declined") ran rfl
  obtain ⟨record, -, next⟩ := pending lives
  refine ⟨w', last, is, ended, unlocked, record, ?_⟩
  obtain ⟨admission, granted⟩ := Option.isSome_iff_exists.mp admitted
  exact next (textVisit.passage "order-1") .client succeeding last.now rfl rfl (Nat.le_refl _) (.inr rfl)
    ⟨_, admission, Exit.of_answer granted⟩ (Exit.ne_broke second)

end Turnstile
