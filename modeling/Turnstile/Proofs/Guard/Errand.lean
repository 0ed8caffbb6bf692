import Turnstile.Proofs.Guard.Visit
import Turnstile.Proofs.Lock.Exclusion

/-!
Errands: all that callers do with one guard.

Besides guarded calls these are the operations of the registry, looks at buckets and takes from them, and locks that
are taken and given back. An errand is a program of its own, so a crowd on errands takes single steps in any order.
The main statement is which calls of the store an errand makes: at its bucket, at the record of the key that it is
about, and at that key's lock. A record is written to with the pending text or with a result that was passed to the
errand's resolution, and only an eviction removes it.
-/

namespace Turnstile

variable {α ω β γ τ : Type}

/-- What is done with a bucket. -/
inductive BucketUse where
  | look (limit : Limit)
  | take (limit : Limit) (cost : UInt32)
  | reset

/-- What a caller comes for. -/
inductive Errand (τ : Type) where
  /-- A guarded call. -/
  | pass (passage : Passage τ)
  | bucket (client path method : String) (use : BucketUse)
  | issue (key : String)
  /-- A key is made up and issued. -/
  | generate
  | find (key : String)
  | lookup (key : String)
  | resolve (key : String) (result : Json.Value)
  | evict (key : String)
  /-- A lock is tried for once, and the lease is given back after some work. -/
  | lock (key : String) (life : Span)
  | breakLock (key : String)

/-- What a caller goes away with. -/
inductive Answer (τ : Type) where
  | guarded (result : Guarded τ)
  | tokens (count : Nat)
  | granted (grant : Grant)
  /-- Whether anything was changed. -/
  | changed (change : Bool)
  | key (key : String)
  | record (record : Option Record)
  | resolution (resolution : Resolution)
  | lease (lease : Option Lease)
  | nothing

namespace Errand

/-- What an errand does. The operation of a guarded call, and the work under a lock, answer a result or a failure. -/
def attempt (g : Guard) : Errand τ → Attempt (Except Failure τ) (Answer τ)
  | .pass passage => do
    return .guarded (← g.run passage.codec ⟨passage.bucket, passage.policy, passage.key⟩ Attempt.work)
  | .bucket client path method (.look limit) => do
    return .tokens (← Throttle.remaining (.of client path method) limit)
  | .bucket client path method (.take limit cost) => do
    return .granted (← Throttle.consume (.of client path method) limit cost)
  | .bucket client path method .reset => do return .changed (← Throttle.reset (.of client path method))
  | .issue key => do return .changed (← g.registry.issue key)
  | .generate => do return .key (← g.registry.generate)
  | .find key => do return .record (← g.registry.find? key)
  | .lookup key => do return .record (some (← g.registry.lookup key))
  | .resolve key result => do return .resolution (← g.registry.resolve key result)
  | .evict key => do return .changed (← g.registry.evict key)
  | .lock key life => do return .lease (← Lease.use key life)
  | .breakLock key => do
    Turnstile.breakLock key
    return .nothing

/-- An errand as the program of a caller. -/
def program (g : Guard) (errand : Errand τ) : Program (Except Failure τ) (Except Failure (Answer τ)) :=
  (errand.attempt g).run

/-- The bucket that an errand is charged to or asks about. -/
def bucket? : Errand τ → Option BucketKey
  | .pass passage => some passage.bucket
  | .bucket client path method _ => some (.of client path method)
  | _ => none

/-- The key that an errand is given. -/
def key? : Errand τ → Option String
  | .pass passage => passage.key
  | .issue key | .find key | .lookup key | .resolve key _ | .evict key | .lock key _ | .breakLock key => some key
  | .bucket .. | .generate => none

/-- The key that an errand is about: the one that it is given, or the one that it has made up. -/
inductive About (i : Nat) (past : List (Note (Except Failure τ))) : Errand τ → String → Prop
  | given (errand : Errand τ) (key : String) (is : errand.key? = some key) : About i past errand key
  | made (key : String) (time : Moment) (named : ⟨i, time, .named key⟩ ∈ past) : About i past .generate key

/-- What an errand passes to the resolution of a key: the result that it is given, or what its operation gave. -/
inductive Passes (i : Nat) (past : List (Note (Except Failure τ))) : Errand τ → String → Json.Value → Prop
  | given (key : String) (result : Json.Value) : Passes i past (.resolve key result) key result
  | worked (passage : Passage τ) (key : String) (time : Moment) (result : τ) (value : Json.Value)
      (presented : passage.key = some key) (gave : ⟨i, time, .worked (.ok result)⟩ ∈ past)
      (encoded : passage.codec.encode result = .ok value) : Passes i past (.pass passage) key value

/-- The calls that a caller makes on an errand, by what it has done so far. -/
inductive Calls (g : Guard) (i : Nat) (past : List (Note (Except Failure τ))) : Errand τ → Call → Prop
  | bucket (errand : Errand τ) (bucket : BucketKey) (c : Call) (here : errand.bucket? = some bucket)
      (touched : c.key? = some bucket.text) : Calls g i past errand c
  | look (errand : Errand τ) (key : String) (about : errand.About i past key) :
      Calls g i past errand (.get (recordKey key))
  | issue (errand : Errand τ) (key : String) (about : errand.About i past key) :
      Calls g i past errand (.setIfAbsent (recordKey key) Record.placeholder g.registry.life)
  | replace (errand : Errand τ) (key : String) (result : Json.Value) (passes : errand.Passes i past key result) :
      Calls g i past errand
        (.compareAndSet (recordKey key) Record.placeholder (Record.resolved result).text g.registry.life)
  | create (errand : Errand τ) (key : String) (result : Json.Value) (passes : errand.Passes i past key result) :
      Calls g i past errand (.setIfAbsent (recordKey key) (Record.resolved result).text g.registry.life)
  | evict (key : String) : Calls g i past (.evict key) (.delete (recordKey key))
  | lock (errand : Errand τ) (key : String) (c : Call) (about : errand.About i past key)
      (touched : c.key? = some (lockKey key)) : Calls g i past errand c

/-- A result is passed for the key that the errand is given: it is handed over with the key, or it is what the operation
of a passage with that key gave. -/
theorem Passes.about {i : Nat} {past : List (Note (Except Failure τ))} {errand : Errand τ} {key : String}
    {result : Json.Value} (passes : errand.Passes i past key result) : errand.key? = some key := by
  cases passes with
  | given => rfl
  | worked _ _ _ _ _ presented _ _ => exact presented

/-- What was passed stays passed, since the run that gave it is among the notes. -/
theorem Passes.mono {i : Nat} {past past' : List (Note (Except Failure τ))} {errand : Errand τ} {key : String}
    {result : Json.Value} (more : past ⊆ past') (passes : errand.Passes i past key result) :
    errand.Passes i past' key result := by
  cases passes with
  | given => exact .given _ _
  | worked passage _ time result value presented gave encoded =>
    exact .worked passage key time _ _ presented (more gave) encoded

/-- A bucket of an errand is where a client, a path and a method put it, for passages and for questions about a bucket
alike. -/
theorem bucket_of {errand : Errand τ} {bucket : BucketKey} (here : errand.bucket? = some bucket) :
    ∃ client path method, bucket = .of client path method := by
  cases errand with
  | pass passage => exact ⟨_, _, _, (Option.some.inj here).symm⟩
  | bucket client path method use => exact ⟨client, path, method, (Option.some.inj here).symm⟩
  | _ => cases here

/-- What an errand does at a record: it looks, it issues, it stores what was passed, or it evicts. Calls at buckets and
locks have keys of other kinds. -/
theorem Calls.at_record {g : Guard} {i : Nat} {past : List (Note (Except Failure τ))} {errand : Errand τ} {c : Call}
    {k : String} (calls : errand.Calls g i past c) (touched : c.key? = some (recordKey k)) :
    c = .get (recordKey k) ∨ c = .setIfAbsent (recordKey k) Record.placeholder g.registry.life ∨
      (∃ result, errand.Passes i past k result ∧
        (c = .compareAndSet (recordKey k) Record.placeholder (Record.resolved result).text g.registry.life ∨
          c = .setIfAbsent (recordKey k) (Record.resolved result).text g.registry.life)) ∨
        (errand = .evict k ∧ c = .delete (recordKey k)) := by
  cases calls with
  | bucket _ bucket _ here at' =>
    obtain ⟨client, path, method, rfl⟩ := bucket_of here
    exact absurd touched (bucket_elsewhere at' k).1
  | look _ key _ =>
    obtain rfl := recordKey_injective (Option.some.inj touched)
    exact .inl rfl
  | issue _ key _ =>
    obtain rfl := recordKey_injective (Option.some.inj touched)
    exact .inr (.inl rfl)
  | replace _ key result passes =>
    obtain rfl := recordKey_injective (Option.some.inj touched)
    exact .inr (.inr (.inl ⟨result, passes, .inl rfl⟩))
  | create _ key result passes =>
    obtain rfl := recordKey_injective (Option.some.inj touched)
    exact .inr (.inr (.inl ⟨result, passes, .inr rfl⟩))
  | evict key =>
    obtain rfl := recordKey_injective (Option.some.inj touched)
    exact .inr (.inr (.inr ⟨rfl, rfl⟩))
  | lock _ key _ _ at' =>
    rw [at'] at touched
    exact absurd touched (lock_elsewhere k key)

end Errand

namespace Conduct

/-! Attempts of which nothing is asked but that they are allowed. -/

section

variable [TokenNumber α] {d : Conduct α ω} {i : Nat} {v : Scene α ω}

/-- An attempt that does only what its caller may do, whatever comes of it. -/
def Lets (d : Conduct α ω) (i : Nat) (p : Attempt ω β) (v : Scene α ω) : Prop :=
  d.Meets i (fun _ _ => True) (fun _ _ => True) p v

/-- What holds of any scene lasts, whoever moves. -/
theorem lasting_always : d.Lasting i fun _ => True := fun _ _ _ _ _ => trivial

/-- An attempt that only gives a value may always be made. -/
theorem lets_pure {a : β} : d.Lets i (pure a) v := fun _ _ _ => trivial

/-- And so may one that only fails. -/
theorem lets_throw {why : Failure} : d.Lets i (throw why : Attempt ω β) v := fun _ _ _ => trivial

/-- A call may be made if the rules allow it whenever the invariant holds; what it is answered does not matter. -/
theorem lets_ask {c : Call} (allowed : ∀ v, d.inv v → d.may i v (.calling c)) : d.Lets i (Attempt.ask c) v := by
  refine meets_ask fun v' _ invariant => ⟨allowed v' invariant, fun reply v'' _ _ _ => ?_⟩
  cases reply <;> exact fun _ _ _ => trivial

/-- A result that is there already may be passed on, good or bad. -/
theorem lets_ofResult {result : Except Failure β} : d.Lets i (Attempt.ofResult result) v := by
  refine meets_ofResult ?_
  cases result <;> exact fun _ _ _ => trivial

/-- What may be made one after the other may be made together. Nothing is known of what the first part gives, so the
second has to be allowed for all of it. -/
theorem Lets.bind {p : Attempt ω β} {f : β → Attempt ω γ} (first : d.Lets i p v)
    (second : ∀ a v', d.Lets i (f a) v') : d.Lets i (p >>= f) v :=
  Meets.bind (Meets.weaken first (fun v' a _ _ => second a v') fun _ _ _ _ => trivial)

/-- More is known of what the first attempt gives, and the second has to be allowed for that only. -/
theorem lets_bind {p : Attempt ω β} {f : β → Attempt ω γ} {won : Scene α ω → β → Prop}
    {lost : Scene α ω → Failure → Prop} (first : d.Meets i won lost p v)
    (second : ∀ a v', won v' a → d.Lets i (f a) v') : d.Lets i (p >>= f) v :=
  Meets.bind (Meets.weaken first (fun v' a _ holds => second a v' holds) fun _ _ _ _ => trivial)

/-- A key may be checked, as no call is made for it. -/
theorem lets_checkKey {key : String} : d.Lets i (Registry.checkKey key) v :=
  meets_checkKey (fun _ _ _ => trivial) fun _ _ _ _ => trivial

/-- A record may be looked up if its key may be asked for. -/
theorem lets_find {r : Registry} {key : String} (looks : ∀ v, d.inv v → d.may i v (.calling (.get (recordKey key)))) :
    d.Lets i (r.find? key) v :=
  meets_look (fun _ _ _ _ _ => trivial) trivial (fun v _ => looks v) fun _ _ _ _ _ _ _ => trivial

/-- Trying for a lock, with any name. The lease that is got, if one is, is for that very key, so it can be given back by
the same rules. -/
theorem lets_acquire {key : String} {life : Span} (names : ∀ v, d.inv v → d.may i v .naming)
    (locks : ∀ v c, d.inv v → c.key? = some (lockKey key) → d.may i v (.calling c)) :
    d.Meets i (fun _ lease => ∀ l, lease = some l → l.key = key) (fun _ _ => True) (Lease.acquire key life) v := by
  refine meets_acquire fun v₁ _ invariant₁ => ⟨names v₁ invariant₁, fun token v₂ _ _ _ v₃ _ invariant₃ => ?_⟩
  refine ⟨locks v₃ _ invariant₃ rfl, fun reply _ _ _ _ _ _ _ l is => ?_⟩
  rcases reply with why | _ | _
  · cases is
  · cases is
  · cases is
    rfl

/-- Giving back is allowed where calls at the lock are, and whatever always holds does so afterwards. -/
theorem asks_giveBack {lease : Lease} {post : Scene α ω → Prop}
    (locks : ∀ v c, d.inv v → c.key? = some (lockKey lease.key) → d.may i v (.calling c)) (holds : ∀ v, post v) :
    d.Asks i v lease.giveBack fun _ v => d.Henceforth i v post :=
  fun v' _ invariant => ⟨locks v' _ invariant rfl, fun _ _ _ _ _ v _ _ => holds v⟩

end

section

variable [TokenNumber α] {d : Conduct α (Except Failure τ)} {i : Nat} {v : Scene α (Except Failure τ)} {g : Guard}

/-- What callers do on an errand they may do by these rules. -/
structure Permits (d : Conduct α (Except Failure τ)) (g : Guard) (i : Nat) (errand : Errand τ) : Prop where
  calls : ∀ v c, d.inv v → errand.Calls g i v.past c → d.may i v (.calling c)
  names : ∀ v, d.inv v → d.may i v .naming
  works : ∀ v, d.inv v → d.may i v .working
  breaks : ∀ v, d.inv v → d.may i v .breaking

variable {errand : Errand τ}

/-- A bucket of the errand may be asked, at any limit and cost. -/
theorem lets_consume (permits : d.Permits g i errand) {bucket : BucketKey} (here : errand.bucket? = some bucket)
    (limit : Limit) (cost : UInt32) : d.Lets i (Throttle.consume bucket limit cost) v :=
  meets_consume (fun _ _ _ _ _ => trivial) trivial
    (fun v c _ invariant touched => permits.calls v c invariant (.bucket errand bucket c here touched))
    fun _ _ _ _ _ _ _ => trivial

/-- A key of the errand may be worked on under its lock and without it: looks, issues, the lock and the two calls that
store what the operation gave are all calls of the passage. -/
theorem lets_once {passage : Passage τ} {key : String} (permits : d.Permits g i (.pass passage))
    (presented : passage.key = some key) (origin : KeyOrigin) :
    d.Lets i (g.once passage.codec key origin Attempt.work) v := by
  have about (past : List (Note (Except Failure τ))) : (Errand.pass passage).About i past key := .given _ key presented
  have looks (v : Scene α (Except Failure τ)) (invariant : d.inv v) : d.may i v (.calling (.get (recordKey key))) :=
    permits.calls v _ invariant (.look _ key (about v.past))
  have issues (v : Scene α (Except Failure τ)) (invariant : d.inv v) :
      d.may i v (.calling (.setIfAbsent (recordKey key) Record.placeholder g.registry.life)) :=
    permits.calls v _ invariant (.issue _ key (about v.past))
  have locks (v : Scene α (Except Failure τ)) (c : Call) (invariant : d.inv v)
      (touched : c.key? = some (lockKey key)) : d.may i v (.calling c) :=
    permits.calls v c invariant (.lock _ key c (about v.past) touched)
  have carries : d.Carries i (fun _ => True) g key passage.codec := {
    lasting := lasting_always
    kept := fun _ _ _ _ _ _ _ => trivial
    worked := fun _ _ _ _ _ => trivial
    looks := fun v _ => looks v
    issues := fun v _ => issues v
    works := fun v _ => permits.works v
    replaces := fun v time result value _ invariant gave encoded =>
      permits.calls v _ invariant (.replace _ key value (.worked passage key time result value presented gave encoded))
    creates := fun v time result value _ invariant gave encoded =>
      permits.calls v _ invariant (.create _ key value (.worked passage key time result value presented gave encoded)) }
  have kept {v : Scene α (Except Failure τ)} : d.Lets i (g.kept key origin) v :=
    meets_kept carries.lasting trivial carries.looks carries.issues carries.kept
  unfold Guard.once
  refine Lets.bind kept fun found v₁ => ?_
  cases found with
  | some result => exact Lets.bind lets_ofResult fun _ _ => lets_pure
  | none =>
    refine lets_bind (lets_acquire permits.names locks) fun lease v₂ holds => ?_
    cases lease with
    | none => exact lets_throw
    | some lease =>
      have returns (v : Scene α (Except Failure τ)) :
          d.Asks i v lease.giveBack fun _ v => d.Henceforth i v fun _ => True := by
        refine asks_giveBack (fun v c invariant touched => locks v c invariant ?_) fun _ => trivial
        rw [touched, holds lease rfl]
      exact meets_leased (Meets.weaken (meets_locked carries trivial) (fun v _ _ _ => returns v)
        fun v _ _ _ => returns v)

/-- A guarded call makes only the calls of its errand. On its way are its own bucket, the key that it presents, and what
`lets_once` allows at that key. -/
theorem lets_pass {passage : Passage τ} (permits : d.Permits g i (.pass passage)) :
    d.Lets i (g.run passage.codec ⟨passage.bucket, passage.policy, passage.key⟩ Attempt.work) v := by
  refine meets_passage g passage lasting_always trivial ?_ ?_ ?_ ?_ ?_ ?_
  · exact fun v c _ invariant touched => permits.calls v c invariant (.bucket _ passage.bucket c rfl touched)
  · exact fun v _ => permits.breaks v
  · exact fun _ _ _ _ _ _ _ => trivial
  · exact fun _ _ _ => trivial
  · intro v admission _ _ _
    refine meets_work fun v' _ invariant => ⟨permits.works v' invariant, fun answer _ _ _ _ => ?_⟩
    cases answer <;> exact fun _ _ _ => trivial
  · exact fun v origin key admission _ presented _ _ => lets_once permits presented origin

/-- A key that is made up is issued. It is about the errand because the name is the caller's own, which is noted before
the call. -/
theorem lets_generate (permits : d.Permits g i .generate) : d.Lets i g.registry.generate v := by
  unfold Registry.generate
  refine Meets.bind (meets_freshName fun v₁ _ invariant₁ => ⟨permits.names v₁ invariant₁, fun key v₂ did _ _ => ?_⟩)
  intro v₃ moved₃ _
  have named : ⟨i, v₁.now, .named key⟩ ∈ v₃.past := (d.onward i v₂ v₃ moved₃).more did.noted
  refine Lets.bind (meets_ask fun v₄ moved₄ invariant₄ => ?_) fun created v₅ => ?_
  · refine ⟨permits.calls v₄ _ invariant₄ (.issue _ key ?_), fun reply _ _ _ _ => ?_⟩
    · exact .made key v₁.now ((d.onward i v₃ v₄ moved₄).more named)
    · cases reply <;> exact fun _ _ _ => trivial
  · cases created with
    | true => exact lets_pure
    | false => exact lets_throw

/-- Trying for a lock and spending the lease: names may be drawn, the lock may be claimed and given back, and the
operation stands in between. -/
theorem lets_use {key : String} {life : Span} (names : ∀ v, d.inv v → d.may i v .naming)
    (works : ∀ v, d.inv v → d.may i v .working)
    (locks : ∀ v c, d.inv v → c.key? = some (lockKey key) → d.may i v (.calling c)) :
    d.Lets i (Lease.use key life) v := by
  unfold Lease.use
  refine lets_bind (lets_acquire names locks) fun lease v₁ holds => ?_
  cases lease with
  | none => exact lets_pure
  | some lease =>
    refine Lets.bind ?_ fun _ _ => lets_pure
    unfold Lease.spend
    refine Lets.bind (Meets.holding lease ?_) fun _ v₂ => meets_release (asks_giveBack ?_ fun _ => trivial)
    · exact fun v' _ invariant => ⟨works v' invariant, fun _ _ _ _ _ _ _ _ => trivial⟩
    · intro v c invariant touched
      rw [holds lease rfl] at touched
      exact locks v c invariant touched

/-- Whoever is on an errand makes only the calls of the errand. Each kind of errand is taken apart into parts that are
allowed above. -/
theorem safe_errand (permits : d.Permits g i errand) : d.Safe i (fun _ _ => True) (errand.program g) v := by
  have look {key : String} (given : errand.key? = some key) (v : Scene α (Except Failure τ)) (invariant : d.inv v) :
      d.may i v (.calling (.get (recordKey key))) :=
    permits.calls v _ invariant (.look errand key (.given errand key given))
  have locks {key : String} (given : errand.key? = some key) (v : Scene α (Except Failure τ)) (c : Call)
      (invariant : d.inv v) (touched : c.key? = some (lockKey key)) : d.may i v (.calling c) :=
    permits.calls v c invariant (.lock errand key c (.given errand key given) touched)
  have lets : d.Lets i (errand.attempt g) v := by
    cases errand with
    | pass passage => exact Lets.bind (lets_pass permits) fun _ _ => lets_pure
    | bucket client path method use =>
      cases use with
      | look limit =>
        exact Lets.bind (Lets.bind (lets_consume permits rfl limit 0) fun _ _ => lets_pure) fun _ _ => lets_pure
      | take limit cost => exact Lets.bind (lets_consume permits rfl limit cost) fun _ _ => lets_pure
      | reset =>
        exact Lets.bind (lets_ask fun v invariant => permits.calls v _ invariant (.bucket _ _ _ rfl rfl))
          fun _ _ => lets_pure
    | issue key =>
      exact Lets.bind (lets_ask fun v invariant => permits.calls v _ invariant (.issue _ key (.given _ key rfl)))
        fun _ _ => lets_pure
    | generate => exact Lets.bind (lets_generate permits) fun _ _ => lets_pure
    | find key => exact Lets.bind (lets_find (look rfl)) fun _ _ => lets_pure
    | lookup key =>
      refine Lets.bind (Lets.bind lets_checkKey fun _ _ => Lets.bind (lets_find (look rfl)) fun found _ => ?_)
        fun _ _ => lets_pure
      cases found with
      | some record => exact lets_pure
      | none => exact lets_throw
    | resolve key result =>
      refine Lets.bind (meets_resolve lasting_always trivial ?_ ?_ ?_ ?_)
        fun _ _ => lets_pure
      · exact fun v _ => look rfl v
      · exact fun v _ invariant => permits.calls v _ invariant (.replace _ key result (.given key result))
      · exact fun v _ invariant => permits.calls v _ invariant (.create _ key result (.given key result))
      · exact fun _ _ _ _ _ _ _ => trivial
    | evict key =>
      refine Lets.bind (Lets.bind lets_checkKey fun _ _ => ?_) fun _ _ => lets_pure
      exact lets_ask fun v invariant => permits.calls v _ invariant (.evict key)
    | lock key life => exact Lets.bind (lets_use permits.names permits.works (locks rfl)) fun _ _ => lets_pure
    | breakLock key =>
      exact Lets.bind (Lets.bind (lets_ask fun v invariant => locks rfl v _ invariant rfl) fun _ _ => lets_pure)
        fun _ _ => lets_pure
  refine Safe.weaken lets ?_
  exact fun _ _ _ _ => trivial

end

end Conduct

/-- The conduct of callers on errands: they make the calls of their errands, and nobody outside touches the record of
one key. -/
def onErrands [TokenNumber α] (g : Guard) (errands : Nat → Errand τ) (k : String) : Conduct α (Except Failure τ) :=
  .permitting k (fun move _ _ => move.Spares (recordKey k))
    (fun
      | i, v, .calling c => (errands i).Calls g i v.past c
      | _, _, _ => True)
    fun _ _ => trivial

/-- Callers on errands follow that conduct, for the rules are just that they make the calls of their errands. -/
theorem errands_safe [TokenNumber α] {k : String} {w : Crowd α (Except Failure τ) (Except Failure (Answer τ))} (g : Guard)
    (errands : Nat → Errand τ) (callers : ∀ i, w.callers i = (errands i).program g) (i : Nat) :
    (onErrands g errands k).Safe i (fun _ _ => True) (w.callers i) (w.scene k) := by
  rw [callers]
  exact Conduct.safe_errand {
    calls := fun _ _ _ calls => calls
    names := fun _ _ => trivial
    works := fun _ _ => trivial
    breaks := fun _ _ => trivial }

end Turnstile
