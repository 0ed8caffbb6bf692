import Turnstile.Guard
import Turnstile.Proofs.Crowd.Attempts

/-!
Passages: guarded calls on any route, as callers of a crowd.

A passage goes to a route that is idempotent or not, and presents any key or none. The rules here follow the
definition of a guarded call. Admission touches the bucket only. A key is looked up by one call, and what the text
means is decided without the store. Whatever conduct a statement is about, it is enough to follow it at these calls.

Most rules carry a condition through a part of a guarded call: they ask for it to outlive other callers' moves, to be
kept by the deeds of that part, and to allow its calls. What becomes of the call is left open.
-/

namespace Turnstile

variable {α ω β τ : Type}

/-- A guarded call. -/
structure Passage (τ : Type) where
  client : String
  path : String
  method : String
  policy : Policy
  key : Option String
  codec : Codec τ

/-- The bucket that a passage is charged to. -/
def Passage.bucket (passage : Passage τ) : BucketKey := .of passage.client passage.path passage.method

/-- What a passage does. The operation answers a result or a failure. -/
def Passage.program (g : Guard) (passage : Passage τ) :
    Program (Except Failure τ) (Except Failure (Guarded τ)) :=
  (g.run passage.codec ⟨passage.bucket, passage.policy, passage.key⟩ Attempt.work).run

/-- A call at a bucket is at no record and at no lock, for the three kinds of keys are apart. So admission shows at no
idempotency key. -/
theorem bucket_elsewhere {client path method : String} {c : Call}
    (touched : c.key? = some (BucketKey.of client path method).text) (k : String) :
    c.key? ≠ some (recordKey k) ∧ c.key? ≠ some (lockKey k) := by
  rw [touched]
  constructor
  · exact fun same => bucketKey_ne_recordKey _ _ _ _ (Option.some.inj same)
  · exact fun same => bucketKey_ne_lockKey _ _ _ _ (Option.some.inj same)

/-- A call at a lock is at no record, whatever keys the two are of. -/
theorem lock_elsewhere (k key : String) : some (lockKey key) ≠ some (recordKey k) :=
  fun same => recordKey_ne_lockKey k key (Option.some.inj same).symm

/-- The lease that a try for a lock comes to. -/
def Lease.granted? (key token : String) : Except Failure Bool → Option Lease
  | .ok true => some ⟨key, token⟩
  | _ => none

namespace Conduct

section

variable [TokenNumber α] {d : Conduct α ω} {i : Nat} {v : Scene α ω} {lost : Scene α ω → Failure → Prop}

/-- Looking a record up is one call, and what the text means is decided without the store. -/
theorem meets_find {g : Registry} {key : String} {won : Scene α ω → Option Record → Prop}
    (turn : d.Asks i v (.get (recordKey key)) fun reply v =>
      d.Henceforth i v (either won lost · (reply.bind Registry.readRecord))) :
    d.Meets i won lost (g.find? key) v := by
  refine Meets.bind (meets_ask (Turn.mono turn fun reply v holds => ?_))
  intro v' moved invariant
  cases reply with
  | ok text => exact meets_ofResult (Henceforth.later holds moved)
  | error why => exact holds v' moved invariant

/-- Refusing a key, or not: nothing is asked for, so both ends have to be as required from here on. -/
theorem meets_checkKey {key : String} {won : Scene α ω → Unit → Prop} (wins : d.Henceforth i v (won · ()))
    (loses : ∀ why, d.Henceforth i v (lost · why)) : d.Meets i won lost (Registry.checkKey key) v := by
  unfold Registry.checkKey
  split
  · exact meets_throw (loses _)
  · exact meets_pure wins

/-- Trying for a lock makes up a name and asks once. Whoever is not told that the lock was taken goes on without a
lease. -/
theorem meets_acquire {key : String} {life : Span} {won : Scene α ω → Option Lease → Prop}
    (turn : d.Turn i v .naming .named fun token v =>
      d.Asks i v (.setIfAbsent (lockKey key) token life) fun reply v =>
        d.Henceforth i v (won · (Lease.granted? key token reply))) :
    d.Meets i won lost (Lease.acquire key life) v := by
  refine Meets.bind (meets_freshName (Turn.mono turn fun token v named => ?_))
  intro v' moved _
  refine Meets.bind (meets_probe (Turn.mono (Henceforth.later named moved) fun reply v holds => ?_))
  rcases reply with why | _ | _ <;> exact fun v' moved _ => meets_pure (Henceforth.later holds moved)

/-- Giving a lease back, whatever becomes of it: a failure of the call is not told to anybody. -/
theorem meets_release {lease : Lease} {won : Scene α ω → Unit → Prop}
    (turn : d.Asks i v lease.giveBack fun _ v => d.Henceforth i v (won · ())) :
    d.Meets i won lost lease.release v := by
  refine Meets.bind (meets_probe (Turn.mono turn fun reply v holds => ?_))
  exact fun v' moved _ => meets_pure (Henceforth.later holds moved)

/-- Working under a lease. It is given back whether the work wins or loses, and only then is the outcome passed on. -/
theorem meets_leased {lease : Lease} {p : Attempt ω β} {won : Scene α ω → β → Prop}
    (inside : d.Meets i (fun v a => d.Asks i v lease.giveBack fun _ v => d.Henceforth i v (won · a))
      (fun v why => d.Asks i v lease.giveBack fun _ v => d.Henceforth i v (lost · why)) p v) :
    d.Meets i won lost (do
      let outcome ← (p.holding lease).caught
      lease.release
      Attempt.ofResult outcome) v := by
  refine Meets.bind (Meets.caught (Meets.weaken (inside.holding lease) ?_ ?_))
  · intro v a _ turn
    exact Meets.bind (meets_release (Turn.mono turn fun _ v holds => fun v' moved _ =>
      meets_ofResult (Henceforth.later holds moved)))
  · intro v why _ turn
    exact Meets.bind (meets_release (Turn.mono turn fun _ v holds => fun v' moved _ =>
      meets_ofResult (Henceforth.later holds moved)))

variable {holds : Scene α ω → Prop}

/-- Asking a bucket, if its limit is usable. The condition is carried through that one call. -/
theorem meets_consume {key : BucketKey} {limit : Limit} {cost : UInt32} (lasting : d.Lasting i holds)
    (now : holds v) (allowed : ∀ v c, holds v → d.inv v → c.key? = some key.text → d.may i v (.calling c))
    (kept : ∀ v v' c reply, holds v → c.key? = some key.text → Scene.Own d.key i (.called c reply) v v' →
      holds v') :
    d.Meets i (fun v _ => holds v) (fun v _ => holds v) (Throttle.consume key limit cost) v := by
  unfold Throttle.consume
  split
  · exact meets_throw (lasting.henceforth now)
  · refine meets_ask fun v' moved invariant => ?_
    have here : holds v' := lasting v v' moved invariant now
    refine ⟨allowed v' _ here invariant rfl, fun reply v'' did _ _ => ?_⟩
    have after : holds v'' := kept v' v'' _ reply here rfl did
    cases reply <;> exact lasting.henceforth after

/-- Admission asks the bucket and nothing else, and may break down over a wait. -/
theorem meets_pass {t : Throttle} {key : BucketKey} {p : Policy} (lasting : d.Lasting i holds) (now : holds v)
    (allowed : ∀ v c, holds v → d.inv v → c.key? = some key.text → d.may i v (.calling c))
    (breaks : ∀ v, holds v → d.inv v → d.may i v .breaking)
    (kept : ∀ v v' c reply, holds v → c.key? = some key.text → Scene.Own d.key i (.called c reply) v v' →
      holds v')
    (loses : ∀ v why, holds v → lost v why) :
    d.Meets i (fun v _ => holds v) lost (t.pass key p) v := by
  have losing {v : Scene α ω} (now : holds v) (why : Failure) : d.Henceforth i v (lost · why) :=
    fun v' moved invariant => loses v' why (lasting v v' moved invariant now)
  unfold Throttle.pass
  simp only
  split
  · exact meets_throw (losing now _)
  · refine Meets.bind (Meets.caught (Meets.weaken (meets_consume lasting now allowed kept) ?_ ?_))
    · intro v grant _ here
      simp only
      split
      · exact meets_pure (lasting.henceforth here)
      · refine Meets.bind (meets_ofBreakdown ?_ fun seconds => ?_)
        · exact fun v' moved invariant => breaks v' (lasting v v' moved invariant here) invariant
        · exact fun v' moved invariant => meets_throw (losing (lasting v v' moved invariant here) _)
    · intro v failure _ here
      simp only
      split
      · exact meets_pure (lasting.henceforth here)
      · exact meets_throw (losing here _)

/-- Looking a record up. What others' moves and calls at the record leave as it is stays so, whatever is found. -/
theorem meets_look {g : Registry} {key : String} (lasting : d.Lasting i holds) (now : holds v)
    (looks : ∀ v, holds v → d.inv v → d.may i v (.calling (.get (recordKey key))))
    (kept : ∀ v v' c reply, holds v → c.key? = some (recordKey key) →
      Scene.Own d.key i (.called c reply) v v' → holds v') :
    d.Meets i (fun v _ => holds v) (fun v _ => holds v) (g.find? key) v := by
  refine meets_find fun v₁ moved₁ invariant₁ => ?_
  have here₁ : holds v₁ := lasting v v₁ moved₁ invariant₁ now
  refine ⟨looks v₁ here₁ invariant₁, fun reply v₂ did _ _ => ?_⟩
  have here₂ : holds v₂ := kept v₁ v₂ _ reply here₁ rfl did
  simp only
  generalize reply.bind Registry.readRecord = found
  cases found <;> exact lasting.henceforth here₂

/-- A look at a key, and on behalf of a client an issue of it. What others' moves and calls at the record leave as it is
stays so. -/
theorem meets_kept {g : Guard} {key : String} {origin : KeyOrigin} (lasting : d.Lasting i holds) (now : holds v)
    (looks : ∀ v, holds v → d.inv v → d.may i v (.calling (.get (recordKey key))))
    (issues : ∀ v, holds v → d.inv v →
      d.may i v (.calling (.setIfAbsent (recordKey key) Record.placeholder g.registry.life)))
    (kept : ∀ v v' c reply, holds v → c.key? = some (recordKey key) →
      Scene.Own d.key i (.called c reply) v v' → holds v') :
    d.Meets i (fun v _ => holds v) (fun v _ => holds v) (g.kept key origin) v := by
  unfold Guard.kept
  refine Meets.bind (Meets.weaken (meets_look lasting now looks kept) ?_ fun _ _ _ here => here)
  intro v₁ found _ here₁
  match found with
  | some (.resolved value) => exact meets_pure (lasting.henceforth here₁)
  | some .pending => exact meets_pure (lasting.henceforth here₁)
  | none =>
    cases origin with
    | server => exact meets_throw (lasting.henceforth here₁)
    | client =>
      refine Meets.map _ (Meets.map _ (meets_ask fun v₂ moved₂ invariant₂ => ?_))
      have here₂ : holds v₂ := lasting v₁ v₂ moved₂ invariant₂ here₁
      refine ⟨issues v₂ here₂ invariant₂, fun reply v₃ did _ _ => ?_⟩
      have here₃ : holds v₃ := kept v₂ v₃ _ reply here₂ rfl did
      cases reply <;> exact lasting.henceforth here₃

/-- Resolving a key: a replacement, a look, a creation, and one more look. Each of them is a call at the record, so the
condition is carried from one to the next. -/
theorem meets_resolve {g : Registry} {key : String} {value : Json.Value} (lasting : d.Lasting i holds) (now : holds v)
    (looks : ∀ v, holds v → d.inv v → d.may i v (.calling (.get (recordKey key))))
    (replaces : ∀ v, holds v → d.inv v → d.may i v
      (.calling (.compareAndSet (recordKey key) Record.placeholder (Record.resolved value).text g.life)))
    (creates : ∀ v, holds v → d.inv v → d.may i v
      (.calling (.setIfAbsent (recordKey key) (Record.resolved value).text g.life)))
    (kept : ∀ v v' c reply, holds v → c.key? = some (recordKey key) →
      Scene.Own d.key i (.called c reply) v v' → holds v') :
    d.Meets i (fun v _ => holds v) (fun v _ => holds v) (g.resolve key value) v := by
  have look {v : Scene α ω} (now : holds v) :
      d.Meets i (fun v _ => holds v) (fun v _ => holds v) (g.find? key) v := meets_look lasting now looks kept
  unfold Registry.resolve
  refine Meets.bind (meets_ask fun v₁ moved₁ invariant₁ => ?_)
  have here₁ : holds v₁ := lasting v v₁ moved₁ invariant₁ now
  refine ⟨replaces v₁ here₁ invariant₁, fun reply v₂ did _ _ => ?_⟩
  have here₂ : holds v₂ := kept v₁ v₂ _ reply here₁ rfl did
  rcases reply with why | _ | _
  · exact lasting.henceforth here₂
  · intro v₃ moved₃ invariant₃
    have here₃ : holds v₃ := lasting v₂ v₃ moved₃ invariant₃ here₂
    refine Meets.bind (Meets.weaken (look here₃) ?_ fun _ _ _ here => here)
    intro v₄ found _ here₄
    match found with
    | some (.resolved other) => exact meets_pure (lasting.henceforth here₄)
    | some .pending => exact meets_throw (lasting.henceforth here₄)
    | none =>
      refine Meets.bind (meets_ask fun v₅ moved₅ invariant₅ => ?_)
      have here₅ : holds v₅ := lasting v₄ v₅ moved₅ invariant₅ here₄
      refine ⟨creates v₅ here₅ invariant₅, fun reply v₆ did _ _ => ?_⟩
      have here₆ : holds v₆ := kept v₅ v₆ _ reply here₅ rfl did
      rcases reply with why | _ | _
      · exact lasting.henceforth here₆
      · intro v₇ moved₇ invariant₇
        have here₇ : holds v₇ := lasting v₆ v₇ moved₇ invariant₇ here₆
        refine Meets.bind (Meets.weaken (look here₇) ?_ fun _ _ _ here => here)
        intro v₈ found _ here₈
        match found with
        | some (.resolved other) => exact meets_pure (lasting.henceforth here₈)
        | some .pending => exact meets_throw (lasting.henceforth here₈)
        | none => exact meets_throw (lasting.henceforth here₈)
      · exact fun v₇ moved₇ invariant₇ =>
          meets_pure (lasting.henceforth (lasting v₆ v₇ moved₇ invariant₇ here₆))
  · exact fun v₃ moved₃ invariant₃ => meets_pure (lasting.henceforth (lasting v₂ v₃ moved₃ invariant₃ here₂))

/-- A value that can be decoded is returned, and nothing is asked for that. -/
theorem meets_decoded {γ : Type} {codec : Codec γ} {value : Json.Value} (lasting : d.Lasting i holds) (now : holds v)
    (decodes : ∃ result, codec.decode value = .ok result) :
    d.Meets i (fun v' _ => holds v') lost (Guard.decoded codec value) v := by
  obtain ⟨result, decoded⟩ := decodes
  refine meets_ofResult fun v' moved invariant => ?_
  rw [decoded]
  exact lasting v v' moved invariant now

/-- Decoding a value, well or not, asks for nothing either. -/
theorem meets_decoding {γ : Type} {codec : Codec γ} {value : Json.Value} (lasting : d.Lasting i holds)
    (now : holds v) : d.Meets i (fun v _ => holds v) (fun v _ => holds v) (Guard.decoded codec value) v := by
  refine meets_ofResult ?_
  generalize (codec.decode value).mapError Guard.unreadable = outcome
  cases outcome <;> exact lasting.henceforth now

end

section

variable [TokenNumber α] {d : Conduct α (Except Failure τ)} {i : Nat} {v : Scene α (Except Failure τ)}
  {holds : Scene α (Except Failure τ) → Prop} {g : Guard} {key : String} {codec : Codec τ}

/-- What a caller needs to carry a condition through its work on a record: it may look and issue, it may run the
operation, and it may store what its operation gave. -/
structure Carries (d : Conduct α (Except Failure τ)) (i : Nat) (holds : Scene α (Except Failure τ) → Prop) (g : Guard)
    (key : String) (codec : Codec τ) : Prop where
  lasting : d.Lasting i holds
  kept : ∀ v v' c reply, holds v → c.key? = some (recordKey key) → Scene.Own d.key i (.called c reply) v v' → holds v'
  worked : ∀ v v' answer, holds v → Scene.Own d.key i (.worked answer) v v' → holds v'
  looks : ∀ v, holds v → d.inv v → d.may i v (.calling (.get (recordKey key)))
  issues : ∀ v, holds v → d.inv v →
    d.may i v (.calling (.setIfAbsent (recordKey key) Record.placeholder g.registry.life))
  works : ∀ v, holds v → d.inv v → d.may i v .working
  replaces : ∀ v time result value, holds v → d.inv v → ⟨i, time, .worked (.ok result)⟩ ∈ v.past →
    codec.encode result = .ok value → d.may i v (.calling (.compareAndSet (recordKey key) Record.placeholder
      (Record.resolved value).text g.registry.life))
  creates : ∀ v time result value, holds v → d.inv v → ⟨i, time, .worked (.ok result)⟩ ∈ v.past →
    codec.encode result = .ok value →
      d.may i v (.calling (.setIfAbsent (recordKey key) (Record.resolved value).text g.registry.life))

/-- What is done under the lock. What is stored is what the caller's own operation gave, since its deed is noted by
then. -/
theorem meets_locked {origin : KeyOrigin} (carries : d.Carries i holds g key codec) (now : holds v) :
    d.Meets i (fun v _ => holds v) (fun v _ => holds v) (g.locked codec key origin Attempt.work) v := by
  obtain ⟨lasting, kept, worked, looks, issues, works, replaces, creates⟩ := carries
  unfold Guard.locked
  refine Meets.bind (Meets.weaken (meets_kept lasting now looks issues kept) ?_ fun _ _ _ here => here)
  intro v₁ found _ here₁
  cases found with
  | some result => exact Meets.map _ (meets_decoding lasting here₁)
  | none =>
    refine Meets.bind (meets_work fun v₂ moved₂ invariant₂ => ?_)
    have here₂ : holds v₂ := lasting v₁ v₂ moved₂ invariant₂ here₁
    refine ⟨works v₂ here₂ invariant₂, fun answer v₃ did _ _ => ?_⟩
    have here₃ : holds v₃ := worked v₂ v₃ answer here₂ did
    cases answer with
    | error why => exact lasting.henceforth here₃
    | ok result =>
      -- That the operation gave this result is told by a note, and notes stay.
      let told (v : Scene α (Except Failure τ)) : Prop := holds v ∧ ⟨i, v₂.now, .worked (.ok result)⟩ ∈ v.past
      have toldLasting : d.Lasting i told := fun v v' moved invariant now =>
        ⟨lasting v v' moved invariant now.1, (d.onward i v v' moved).more now.2⟩
      have told₃ : told v₃ := ⟨here₃, did.noted⟩
      intro v₄ moved₄ invariant₄
      have told₄ : told v₄ := toldLasting v₃ v₄ moved₄ invariant₄ told₃
      refine Meets.bind (meets_ofResult fun v₅ moved₅ invariant₅ => ?_)
      have told₅ : told v₅ := toldLasting v₄ v₅ moved₅ invariant₅ told₄
      cases encoded : codec.encode result with
      | error cause => exact told₅.1
      | ok value =>
        have resolves : d.Meets i (fun v _ => told v) (fun v _ => told v) (g.registry.resolve key value) v₅ :=
          meets_resolve toldLasting told₅ (fun v now => looks v now.1)
            (fun v now invariant => replaces v v₂.now result value now.1 invariant now.2 encoded)
            (fun v now invariant => creates v v₂.now result value now.1 invariant now.2 encoded)
            fun v v' c reply now touched did => ⟨kept v v' c reply now.1 touched did, did.more now.2⟩
        refine Meets.bind (Meets.weaken resolves ?_ fun _ _ _ now => now.1)
        intro v₆ resolution _ told₆
        cases resolution with
        | stored => exact meets_pure (lasting.henceforth told₆.1)
        | alreadyResolved other => exact Meets.map _ (meets_decoding lasting told₆.1)

/-- A passage: admission first, then the operation, or the key and what goes with it. A refusal of the key comes in
between, and asks for nothing. -/
theorem meets_passage {won : Scene α (Except Failure τ) → Guarded τ → Prop}
    {lost : Scene α (Except Failure τ) → Failure → Prop} (g : Guard) (passage : Passage τ)
    (lasting : d.Lasting i holds) (now : holds v)
    (allowed : ∀ v c, holds v → d.inv v → c.key? = some passage.bucket.text → d.may i v (.calling c))
    (breaks : ∀ v, holds v → d.inv v → d.may i v .breaking)
    (kept : ∀ v v' c reply, holds v → c.key? = some passage.bucket.text →
      Scene.Own d.key i (.called c reply) v v' → holds v')
    (loses : ∀ v why, holds v → lost v why)
    (works : ∀ v admission, passage.policy.origin = none → holds v → d.inv v →
      d.Meets i (fun v result => won v ⟨result, false, admission⟩) lost Attempt.work v)
    (once : ∀ v origin key admission, passage.policy.origin = some origin → passage.key = some key → holds v →
      d.inv v → d.Meets i (fun v a => won v ⟨a.1, a.2, admission⟩) lost
        (g.once passage.codec key origin Attempt.work) v) :
    d.Safe i (either won lost) (passage.program g) v := by
  have losing {v : Scene α (Except Failure τ)} (now : holds v) (why : Failure) : d.Henceforth i v (lost · why) :=
    fun v' moved invariant => loses v' why (lasting v v' moved invariant now)
  change d.Meets i won lost
    (g.run passage.codec ⟨passage.bucket, passage.policy, passage.key⟩ Attempt.work) v
  unfold Guard.run
  refine Meets.bind (Meets.weaken (meets_pass lasting now allowed breaks kept loses) ?_ fun _ _ _ lost => lost)
  intro v admission invariant here
  cases is : passage.policy.origin with
  | none => exact Meets.map _ (works v admission is here invariant)
  | some origin =>
    cases presented : passage.key with
    | none => exact meets_throw (losing here _)
    | some key =>
      refine Meets.bind (meets_checkKey ?_ (losing here))
      intro v' moved invariant'
      exact Meets.map _ (once v' origin key admission is presented (lasting v v' moved invariant' here) invariant')

end

end Conduct

end Turnstile
