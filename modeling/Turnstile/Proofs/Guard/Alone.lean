import Turnstile.Proofs.Guard.Gate
import Turnstile.Proofs.Program.Play
import Turnstile.Proofs.Registry.LifeCycle
import Turnstile.Proofs.Store.Serving

/-!
A guarded call that has the store to itself.

While it is played no other caller takes a step, and time passes in its operation only. Each part of the call is
described by what shows at the bucket, at the record of the key and at its lock before and after it; everything else
shows as it did. A look finds that the key awaits its operation, and then its record is pending afterwards, or finds it
settled and leaves it alone. A try for the lock takes it where it is free, and giving it back leaves none.

A store that answers admission is whole, so its later calls do not fail. They may still break down, when an end of life
is past what the clock can show. Nothing is said of a call that breaks down.
-/

namespace Turnstile

variable {α β τ : Type}

/-- A store that one caller has the use of, the time, and how often the wrapped operation has been invoked. -/
structure Lone (α : Type) where
  store : Store α
  now : Moment
  ran : Nat

/-- What a call meets outside the store: the name that it makes up, how long its operation takes, and its answer. -/
structure Occasion (τ : Type) where
  token : String
  nanos : Nat
  answer : Except Failure τ

/-- The store of a crowd at some moment, for one caller alone. -/
def Crowd.lone {ω : Type} (w : Crowd α ω β) : Lone α := ⟨w.store, w.now, 0⟩

namespace Lone

/-- The live entry at a key. -/
def shows (s : Lone α) (key : String) : Option (Entry α) := s.store.live? s.now key

/-- No time has passed, the operation has not been invoked, and at most the entries at these keys are different. -/
structure SameBut (keys : List String) (s s' : Lone α) : Prop where
  now : s'.now = s.now
  ran : s'.ran = s.ran
  elsewhere : ∀ key, key ∉ keys → s'.shows key = s.shows key

/-- If nothing is done, nothing is different. -/
theorem SameBut.refl {keys : List String} (s : Lone α) : SameBut keys s s where
  now := rfl
  ran := rfl
  elsewhere _ _ := rfl

/-- What changes at these keys only, twice, changes at these keys only. -/
theorem SameBut.trans {keys : List String} {s s' s'' : Lone α} (first : SameBut keys s s')
    (second : SameBut keys s' s'') : SameBut keys s s'' where
  now := second.now.trans first.now
  ran := second.ran.trans first.ran
  elsewhere key apart := (second.elsewhere key apart).trans (first.elsewhere key apart)

/-- Whoever leaves alone all but some keys leaves alone all but more of them. -/
theorem SameBut.mono {keys keys' : List String} {s s' : Lone α} (same : SameBut keys s s') (more : keys ⊆ keys') :
    SameBut keys' s s' :=
  { same with elsewhere := fun key apart => same.elsewhere key fun among => apart (more among) }

/-- In particular, if nothing has changed at all, nothing has changed but at these keys. -/
theorem SameBut.widen {keys : List String} {s s' : Lone α} (same : SameBut [] s s') : SameBut keys s s' :=
  same.mono (List.nil_subset keys)

/-- An entry that shows as it did is not different, so if it was the only one that might be, nothing is. -/
theorem SameBut.of_shows {key : String} {s s' : Lone α} (same : SameBut [key] s s')
    (shown : s'.shows key = s.shows key) : SameBut [] s s' where
  now := same.now
  ran := same.ran
  elsewhere other _ := by
    by_cases here : other = key
    · rw [here, shown]
    · exact same.elsewhere other fun among => here (List.mem_singleton.mp among)

/-- What shows is live, as it was asked for at this very moment. -/
theorem filter_shows (s : Lone α) (key : String) : (s.shows key).filter (·.isLive s.now) = s.shows key :=
  Store.filter_live _ (Nat.le_refl _)

/-- What shows later is what showed before, unless it has expired by then: the store itself is the same. -/
theorem shows_later (s : Lone α) {now : Moment} (ahead : s.now ≤ now) (ran : Nat) (key : String) :
    (⟨s.store, now, ran⟩ : Lone α).shows key = (s.shows key).filter (·.isLive now) :=
  Store.live?_later s.store ahead key

end Lone

/-- What the operation leaves: it is invoked once more and takes its time. -/
def Occasion.worked (o : Occasion τ) (s : Lone α) : Lone α := ⟨s.store, ⟨s.now.nanos + o.nanos⟩, s.ran + 1⟩

/-- When the operation ends depends on when it was begun only, and not on the store. -/
theorem Occasion.worked_now (o : Occasion τ) {s s' : Lone α} (now : s'.now = s.now) :
    (o.worked s').now = (o.worked s).now := by
  rw [worked, now, worked]

/-- While the operation runs nothing happens to the store but that time passes. -/
theorem Occasion.worked_shows (o : Occasion τ) (s : Lone α) (key : String) :
    (o.worked s).shows key = (s.shows key).filter (·.isLive (o.worked s).now) :=
  s.shows_later (Nat.le_add_right _ _) _ key

variable [TokenNumber α]

/-- The store answers the calls, the operation takes its time and answers. -/
def Occasion.host (o : Occasion τ) : Host (Lone α) (Except Failure τ) where
  call c s := ({ s with store := (s.store.perform s.now c).1 }, (s.store.perform s.now c).2)
  fresh s := (s, o.token)
  work s := (o.worked s, .answered o.answer)

/-- How a guarded call goes that has the store to itself. -/
def Passage.alone (g : Guard) (passage : Passage τ) (o : Occasion τ) (s : Lone α) :
    Lone α × Exit (Except Failure (Guarded τ)) :=
  (passage.program g).play o.host s

/-- The part of a guarded call that asks for admission. -/
def Passage.admission (g : Guard) (passage : Passage τ) (o : Occasion τ) (s : Lone α) :
    Lone α × Exit (Except Failure Admission) :=
  (g.throttle.pass passage.bucket passage.policy : Attempt (Except Failure τ) Admission).run.play o.host s

namespace Lone

variable {o : Occasion τ} {s s' : Lone α} {key k : String} {c : Call}

/-- A sound store that answers a call at a key answers as the live entry there decides. What shows elsewhere, the time
and the operation are as they were, for the call is about that key only. -/
theorem answered {reply : Except Failure c.Reply} (sound : s.store.Sound) (touched : c.key? = some key)
    (called : o.host.call c s = (s', .ok reply)) :
    ∃ r e, reply = .ok r ∧ c.onEntry s.now (s.shows key) = .ok (e, r) ∧ s'.store.Sound ∧
      s'.shows key = e.filter (·.isLive s.now) ∧ SameBut [key] s s' := by
  obtain ⟨rfl, replied⟩ := Prod.mk.inj called
  have fine : (s.store.serve s.now (.call c)).2.isBreakdown = false := by
    simp only [Store.serve, replied]
    rfl
  obtain ⟨r, is⟩ := Store.answered_of_sound sound fine
  rw [replied] at is
  cases is
  have performed : s.store.perform s.now c = ((s.store.perform s.now c).1, .ok (.ok r)) := Prod.ext rfl replied
  obtain ⟨e, decided, here, others, -⟩ := Store.perform_answered touched sound.distinct performed
  have same : SameBut [key] s ⟨(s.store.perform s.now c).1, s.now, s.ran⟩ := {
    now := rfl
    ran := rfl
    elsewhere := fun other apart => others other fun same => apart (List.mem_singleton.mpr same) }
  exact ⟨r, e, rfl, decided, Store.serve_sound sound fine, here, same⟩

/-- A call at a key is made and answered: what has to be shown is about the entry that the call decides on and the one
it leaves. -/
theorem brings_ask {post : Lone α → Except Failure c.Reply → Prop} (sound : s.store.Sound)
    (touched : c.key? = some key)
    (holds : ∀ s' r e, c.onEntry s.now (s.shows key) = .ok (e, r) → s'.store.Sound →
      s'.shows key = e.filter (·.isLive s.now) → SameBut [key] s s' → post s' (.ok r)) :
    (Attempt.ask c : Attempt (Except Failure τ) c.Reply).Brings o.host s post := by
  refine Attempt.brings_ask fun s' reply called => ?_
  obtain ⟨r, e, rfl, decided, sound', here, same⟩ := answered sound touched called
  exact holds s' r e decided sound' here same

/-- It is the same for a call whose failure would be passed on as a value; in a sound store it has none. -/
theorem brings_probe {post : Lone α → Except Failure (Except Failure c.Reply) → Prop} (sound : s.store.Sound)
    (touched : c.key? = some key)
    (holds : ∀ s' r e, c.onEntry s.now (s.shows key) = .ok (e, r) → s'.store.Sound →
      s'.shows key = e.filter (·.isLive s.now) → SameBut [key] s s' → post s' (.ok (.ok r))) :
    (Attempt.probe c : Attempt (Except Failure τ) _).Brings o.host s post := by
  refine Attempt.brings_probe fun s' reply called => ?_
  obtain ⟨r, e, rfl, decided, sound', here, same⟩ := answered sound touched called
  exact holds s' r e decided sound' here same

end Lone

/-! Admission. -/

section

variable {o : Occasion τ} {s : Lone α} {t : Throttle} {bucket : BucketKey} {p : Policy}

/-- Asking a bucket changes nothing else. Whoever gets an answer has found the store whole, and no failure lets a call
through. -/
theorem brings_consume (t : Throttle) (distinct : s.store.entries.Distinct) (limit : Limit) (cost : UInt32) :
    (Throttle.consume bucket limit cost : Attempt (Except Failure τ) Grant).Brings o.host s fun s' outcome =>
      Lone.SameBut [bucket.text] s s' ∧ (∀ grant, outcome = .ok grant → s'.store.Sound) ∧
        ∀ why, outcome = .error why → t.letsThrough why = false := by
  unfold Throttle.consume
  split
  · refine Attempt.brings_throw ⟨Lone.SameBut.refl s, ?_, ?_⟩
    · rintro grant ⟨⟩
    · rintro why ⟨⟩
      rfl
  · refine Attempt.brings_ask (c := .take bucket.text limit cost) fun s' reply called => ?_
    obtain ⟨rfl, replied⟩ := Prod.mk.inj called
    have elsewhere (key : String) (apart : key ∉ [bucket.text]) :
        (Call.take bucket.text limit cost).key? ≠ some key :=
      fun touched => apart (List.mem_singleton.mpr (Option.some.inj touched).symm)
    refine ⟨?same, ?whole, ?stops⟩
    case same => exact {
      now := rfl
      ran := rfl
      elsewhere := fun key apart => (Store.perform_elsewhere s.now distinct (elsewhere key apart)).2 }
    case whole =>
      rintro grant rfl
      have performed : s.store.perform s.now (.take bucket.text limit cost) =
          ((s.store.perform s.now (.take bucket.text limit cost)).1, .ok (.ok grant)) := Prod.ext rfl replied
      obtain ⟨-, -, -, -, distinct'⟩ := Store.perform_answered rfl distinct performed
      exact ⟨(Store.answer_of_performed rfl performed).1, distinct'⟩
    case stops =>
      rintro why rfl
      obtain rfl := Store.perform_failure replied
      rfl

/-- Admission changes nothing but the bucket, and whoever is admitted has found the store whole: an admission without a
bucket is given only if the store can not be reached, which does not happen here. -/
theorem brings_pass (distinct : s.store.entries.Distinct) :
    (t.pass bucket p : Attempt (Except Failure τ) Admission).Brings o.host s fun s' outcome =>
      Lone.SameBut [bucket.text] s s' ∧ ∀ admission, outcome = .ok admission → s'.store.Sound := by
  unfold Throttle.pass
  dsimp only
  split
  · refine Attempt.brings_throw ⟨Lone.SameBut.refl s, ?_⟩
    rintro admission ⟨⟩
  · refine Attempt.Brings.caught _ (brings_consume t distinct p.limit p.cost) ?_
    rintro s' (why | grant) ⟨same, whole, stops⟩
    · dsimp only
      rw [if_neg (by rw [stops why rfl]; decide)]
      exact Attempt.brings_throw ⟨same, by rintro admission ⟨⟩⟩
    · dsimp only
      split
      · exact Attempt.brings_pure ⟨same, fun _ _ => whole grant rfl⟩
      · cases told : Throttle.retryAfter grant.wait with
        | ok seconds => exact Attempt.brings_throw ⟨same, by rintro admission ⟨⟩⟩
        | error why =>
          intro s'' outcome played
          cases played

end

/-! The key. -/

/-- An entry whose text reads as a pending record. -/
def Entry.IsPending (e : Entry α) : Prop := ∃ text, e.text? = some text ∧ Record.read text = .ok .pending

/-- The record that a call works on: the one that is there, or a new one. -/
def Guard.standing (g : Guard) (k : String) (s : Lone α) : Entry α :=
  (s.shows (recordKey k)).getD (g.registry.entry s.now .pending)

/-- Whoever comes with the key has its operation to run: the record is pending, or there is none and clients bring their
keys. -/
structure Awaits (g : Guard) (k : String) (origin : KeyOrigin) (s : Lone α) : Prop where
  pending : (g.standing k s).IsPending
  client : s.shows (recordKey k) = none → origin = .client

/-- The record of a key, if there is one, holds a text. -/
def Lone.HoldsText (s : Lone α) (k : String) : Prop := ∀ e, s.shows (recordKey k) = some e → e.text?.isSome = true

/-- What becomes of a look at a key: a key that awaits its operation is pending from then on, as long as its record
lives, and for any other key nothing is changed. -/
inductive Looked (g : Guard) (k : String) (origin : KeyOrigin) (s s' : Lone α) :
    Except Failure (Option Json.Value) → Prop
  | awaited (awaits : Awaits g k origin s) (same : Lone.SameBut [recordKey k] s s')
      (record : s'.shows (recordKey k) = (some (g.standing k s)).filter (·.isLive s.now)) :
      Looked g k origin s s' (.ok none)
  | settled (outcome : Except Failure (Option Json.Value)) (settled : ¬ Awaits g k origin s)
      (same : Lone.SameBut [] s s') (tells : outcome ≠ .ok none) : Looked g k origin s s' outcome

section

omit [TokenNumber α]

variable {s s₁ s' : Lone α} {g : Guard} {k : String} {origin : KeyOrigin}

/-- A new record is pending, since its text is the placeholder. -/
theorem Registry.isPending_entry (r : Registry) (now : Moment) : (r.entry now .pending : Entry α).IsPending :=
  ⟨Record.placeholder, rfl, Record.read_placeholder⟩

/-- Where there is no record, the one that is worked on is new. -/
theorem Guard.standing_of_none (nothing : s.shows (recordKey k) = none) :
    g.standing k s = g.registry.entry s.now .pending := by
  rw [standing, nothing, Option.getD_none]

/-- And where there is one, that is it. -/
theorem Guard.standing_of_some {e : Entry α} (there : s.shows (recordKey k) = some e) : g.standing k s = e := by
  rw [standing, there, Option.getD_some]

/-- What the record is does not depend on what shows elsewhere, nor on anything but the time at which a new one would be
made. -/
theorem Guard.standing_congr (now : s'.now = s.now) (shown : s'.shows (recordKey k) = s.shows (recordKey k)) :
    g.standing k s' = g.standing k s := by
  rw [standing, shown, now, standing]

/-- A record that is there is the one that is worked on, and it is live. -/
theorem Guard.filter_standing (there : s.shows (recordKey k) ≠ none) :
    (some (g.standing k s)).filter (·.isLive s.now) = s.shows (recordKey k) := by
  obtain ⟨e, there⟩ := Option.ne_none_iff_exists'.mp there
  rw [standing_of_some there, ← there, s.filter_shows]

/-- What a look at the key reads decides whether the operation is to be run: it is if the record reads as pending, and
also if there is none and clients bring their keys. -/
theorem awaits_iff (holdsText : s.HoldsText k) : Awaits g k origin s ↔
    Registry.readRecord ((s.shows (recordKey k)).bind Entry.text?) = .ok (some .pending) ∨
      s.shows (recordKey k) = none ∧ origin = .client := by
  cases there : s.shows (recordKey k) with
  | none =>
    constructor
    · exact fun awaits => .inr ⟨rfl, awaits.client there⟩
    · rintro (read | ⟨-, client⟩)
      · cases read
      · refine { pending := ?_, client := fun _ => client }
        rw [Guard.standing_of_none there]
        exact g.registry.isPending_entry s.now
  | some e =>
    have standing : g.standing k s = e := Guard.standing_of_some there
    obtain ⟨text, holds⟩ := Option.isSome_iff_exists.mp (holdsText e there)
    rw [Option.bind_some, readRecord_pending]
    constructor
    · exact fun awaits => .inl (standing ▸ awaits.pending)
    · rintro (pending | ⟨nothing, -⟩)
      · refine { pending := standing ▸ pending, client := fun nothing => ?_ }
        rw [there] at nothing
        cases nothing
      · cases nothing

/-- Whether a key awaits its operation does not depend on what shows elsewhere, for the record and the time decide it. -/
theorem Awaits.congr (now : s'.now = s.now) (shown : s'.shows (recordKey k) = s.shows (recordKey k)) :
    Awaits g k origin s' ↔ Awaits g k origin s := by
  have standing : g.standing k s' = g.standing k s := Guard.standing_congr now shown
  constructor
  · rintro ⟨pending, client⟩
    exact { pending := standing ▸ pending, client := shown ▸ client }
  · rintro ⟨pending, client⟩
    exact { pending := standing ▸ pending, client := shown ▸ client }

/-- Nothing was changed before the look, so what it tells holds of the earlier state as well. -/
theorem Looked.after {outcome : Except Failure (Option Json.Value)} (same : Lone.SameBut [] s s₁)
    (looked : Looked g k origin s₁ s' outcome) : Looked g k origin s s' outcome := by
  have shown : s₁.shows (recordKey k) = s.shows (recordKey k) := same.elsewhere _ List.not_mem_nil
  cases looked with
  | awaited awaits same' record =>
    have standing : g.standing k s₁ = g.standing k s := Guard.standing_congr same.now shown
    refine .awaited ((Awaits.congr same.now shown).mp awaits) (same.widen.trans same') ?_
    rw [record, standing, same.now]
  | settled _ settled same' tells =>
    exact .settled outcome (fun awaits => settled ((Awaits.congr same.now shown).mpr awaits)) (same.trans same') tells

end

section

variable {o : Occasion τ} {s : Lone α} {g : Guard} {k : String} {origin : KeyOrigin}

/-- Looking a record up changes nothing, and what is found is read from the text that shows. -/
theorem brings_find (r : Registry) (sound : s.store.Sound) :
    (r.find? k : Attempt (Except Failure τ) (Option Record)).Brings o.host s fun s' outcome =>
      s'.store.Sound ∧ Lone.SameBut [] s s' ∧
        Registry.readRecord ((s.shows (recordKey k)).bind Entry.text?) = outcome := by
  have asks : (Attempt.ask (.get (recordKey k)) : Attempt (Except Failure τ) (Option String)).Brings o.host s
      fun s' outcome => s'.store.Sound ∧ Lone.SameBut [] s s' ∧
        outcome = .ok ((s.shows (recordKey k)).bind Entry.text?) := by
    refine Lone.brings_ask (c := .get (recordKey k)) sound rfl fun s' text e decided sound' here same => ?_
    obtain ⟨rfl, rfl⟩ := Call.onEntry_get decided
    rw [Lone.filter_shows] at here
    exact ⟨sound', same.of_shows here, rfl⟩
  unfold Registry.find?
  refine Attempt.Brings.bind _ asks ?_ ?_
  · rintro s' text ⟨sound', same, is⟩
    cases is
    exact Attempt.brings_ofResult ⟨sound', same, rfl⟩
  · rintro s' why ⟨-, -, is⟩
    cases is

/-- A key without a record is issued. The store creates the placeholder, because there is nothing in its place; from
then on it is the record that is worked on. -/
theorem brings_issue (sound : s.store.Sound) (nothing : s.shows (recordKey k) = none) :
    (g.registry.issue k : Attempt (Except Failure τ) Bool).Brings o.host s fun s' outcome =>
      s'.store.Sound ∧ Lone.SameBut [recordKey k] s s' ∧ outcome = .ok true ∧
        s'.shows (recordKey k) = (some (g.standing k s)).filter (·.isLive s.now) := by
  unfold Registry.issue
  refine Lone.brings_ask (c := .setIfAbsent (recordKey k) Record.placeholder g.registry.life) sound rfl
    fun s' created e decided sound' here same => ?_
  cases created with
  | false =>
    have there := (Call.onEntry_set_false decided).1
    rw [nothing] at there
    cases there
  | true =>
    obtain ⟨-, expires, reached, rfl⟩ := Call.onEntry_set_true decided
    have is : (⟨.text Record.placeholder, expires⟩ : Entry α) = g.standing k s := by
      rw [Guard.standing_of_none nothing]
      exact Registry.eq_entry rfl (Store.later_nanos reached)
    exact ⟨sound', same, rfl, is ▸ here⟩

/-- A key without a record is issued or refused, by whether clients bring their keys. If they do not, nothing is
changed. -/
theorem brings_firstSight (sound : s.store.Sound) (nothing : s.shows (recordKey k) = none) (holdsText : s.HoldsText k) :
    (g.firstSight k origin : Attempt (Except Failure τ) Unit).Brings o.host s fun s' outcome =>
      s'.store.Sound ∧ Looked g k origin s s' (outcome.map fun _ => none) := by
  cases origin with
  | server =>
    refine Attempt.brings_throw ⟨sound, .settled _ (fun awaits => ?_) (Lone.SameBut.refl s) (by rintro ⟨⟩)⟩
    cases awaits.client nothing
  | client =>
    refine Attempt.Brings.bind _ (brings_issue (g := g) sound nothing) ?_ ?_
    · rintro s' created ⟨sound', same, -, record⟩
      exact Attempt.brings_pure ⟨sound', .awaited ((awaits_iff holdsText).mpr (.inr ⟨nothing, rfl⟩)) same record⟩
    · rintro s' why ⟨-, -, is, -⟩
      cases is

/-- A look at the key. Its record reads as a result, as pending or not at all; only if it is pending, or was just
issued, does the key await its operation. -/
theorem brings_kept (origin : KeyOrigin) (sound : s.store.Sound) (holdsText : s.HoldsText k) :
    (g.kept k origin : Attempt (Except Failure τ) (Option Json.Value)).Brings o.host s fun s' outcome =>
      s'.store.Sound ∧ Looked g k origin s s' outcome := by
  -- A key whose record reads as anything but pending does not await its operation.
  have settled {read : Except Failure (Option Record)}
      (reads : Registry.readRecord ((s.shows (recordKey k)).bind Entry.text?) = read)
      (other : read ≠ .ok (some .pending) ∧ read ≠ .ok none) : ¬ Awaits g k origin s := by
    rw [awaits_iff holdsText, reads]
    rintro (pending | ⟨nothing, -⟩)
    · exact other.1 pending
    · rw [nothing] at reads
      exact other.2 reads.symm
  unfold Guard.kept
  refine Attempt.Brings.bind _ (brings_find g.registry sound) ?_ ?_
  · rintro s₁ found ⟨sound₁, same₁, reads⟩
    have shown : s₁.shows (recordKey k) = s.shows (recordKey k) := same₁.elsewhere _ List.not_mem_nil
    match found with
    | none =>
      have nothing : s₁.shows (recordKey k) = none := by
        rw [shown, Option.eq_none_iff_forall_ne_some]
        intro e there
        have textless := readRecord_none.mp reads
        rw [there, Option.bind_some] at textless
        have text := holdsText e there
        rw [textless] at text
        cases text
      have holdsText₁ : s₁.HoldsText k := fun e there => holdsText e (shown ▸ there)
      refine Attempt.Brings.bind _ (brings_firstSight sound₁ nothing holdsText₁) ?_ ?_
      · rintro s' _ ⟨sound', looked⟩
        exact Attempt.brings_pure ⟨sound', looked.after same₁⟩
      · rintro s' why ⟨sound', looked⟩
        exact ⟨sound', looked.after same₁⟩
    | some .pending =>
      have there : s.shows (recordKey k) ≠ none := by
        intro nothing
        rw [nothing] at reads
        cases reads
      refine Attempt.brings_pure ⟨sound₁, .awaited ((awaits_iff holdsText).mpr (.inl reads))
        same₁.widen ?_⟩
      rw [shown, Guard.filter_standing there]
    | some (.resolved result) =>
      exact Attempt.brings_pure ⟨sound₁, .settled _ (settled reads (by constructor <;> rintro ⟨⟩)) same₁
        (by rintro ⟨⟩)⟩
  · rintro s₁ why ⟨sound₁, same₁, reads⟩
    exact ⟨sound₁, .settled _ (settled reads (by constructor <;> rintro ⟨⟩)) same₁ (by rintro ⟨⟩)⟩

end

/-! The lock. -/

/-- If the key is locked, it is by the holder of that token. -/
def Lone.LockedBy (s : Lone α) (k token : String) : Prop := ∀ e, s.shows (lockKey k) = some e → e.text? = some token

/-- What becomes of a try for the lock of a key. -/
inductive Tried (k token : String) (s s' : Lone α) : Except Failure (Option Lease) → Prop
  | held (held : s.shows (lockKey k) ≠ none) (same : Lone.SameBut [] s s') : Tried k token s s' (.ok none)
  | taken (free : s.shows (lockKey k) = none) (same : Lone.SameBut [lockKey k] s s') (ours : s'.LockedBy k token) :
      Tried k token s s' (.ok (some ⟨k, token⟩))

section

variable {o : Occasion τ} {s s' : Lone α} {k token : String}

omit [TokenNumber α] in
/-- Time takes locks away and brings none: what is locked later was locked before, by the same token. -/
theorem Lone.LockedBy.later (ours : s.LockedBy k token)
    (shown : s'.shows (lockKey k) = (s.shows (lockKey k)).filter (·.isLive s'.now)) : s'.LockedBy k token := by
  intro e there
  rw [shown] at there
  exact ours e (Option.filter_eq_some_iff.mp there).1

/-- A free lock is taken, and one that is held is left alone. The name that is drawn becomes the token, and it is the
only one in the lock. -/
theorem brings_acquire (sound : s.store.Sound) (life : Span) :
    (Lease.acquire k life : Attempt (Except Failure τ) (Option Lease)).Brings o.host s fun s' outcome =>
      s'.store.Sound ∧ Tried k o.token s s' outcome := by
  unfold Lease.acquire
  refine Attempt.Brings.bind (fun s' outcome => s' = s ∧ outcome = .ok o.token) (Attempt.brings_freshName ⟨rfl, rfl⟩)
    ?_ ?_
  · rintro s' token ⟨rfl, is⟩
    cases is
    refine Attempt.Brings.bind (fun s₁ outcome => s₁.store.Sound ∧ ∃ free, outcome = .ok (.ok free) ∧
      Tried k o.token s' s₁ (.ok (if free then some ⟨k, o.token⟩ else none))) ?_ ?_ ?_
    · refine Lone.brings_probe (c := .setIfAbsent (lockKey k) o.token life) sound rfl
        fun s₁ free e decided sound₁ here same => ⟨sound₁, free, rfl, ?_⟩
      cases free with
      | false =>
        obtain ⟨held, rfl⟩ := Call.onEntry_set_false decided
        rw [Lone.filter_shows] at here
        exact .held (Option.isSome_iff_ne_none.mp held) (same.of_shows here)
      | true =>
        obtain ⟨free, expires, -, rfl⟩ := Call.onEntry_set_true decided
        refine .taken free same fun e there => ?_
        rw [here] at there
        obtain rfl := Option.some.inj (Option.filter_eq_some_iff.mp there).1
        rfl
    · rintro s₁ reply ⟨sound₁, free, is, tried⟩
      cases is
      cases free with
      | false => exact Attempt.brings_pure ⟨sound₁, tried⟩
      | true => exact Attempt.brings_pure ⟨sound₁, tried⟩
    · rintro s₁ why ⟨-, free, is, -⟩
      cases is
  · rintro s' why ⟨-, is⟩
    cases is

/-- A lease that is given back leaves no lock, whether its lock was still there or not. If it was, its token is the one
that is given back; if not, there is nothing to remove. -/
theorem brings_release (sound : s.store.Sound) (ours : s.LockedBy k token) :
    (Lease.release ⟨k, token⟩ : Attempt (Except Failure τ) Unit).Brings o.host s fun s' outcome =>
      s'.store.Sound ∧ Lone.SameBut [lockKey k] s s' ∧ s'.shows (lockKey k) = none ∧ outcome = .ok () := by
  have gives : (Attempt.probe (Lease.giveBack ⟨k, token⟩) : Attempt (Except Failure τ) _).Brings o.host s
      fun s' outcome => s'.store.Sound ∧ Lone.SameBut [lockKey k] s s' ∧ s'.shows (lockKey k) = none ∧
        ∃ reply, outcome = .ok reply := by
    refine Lone.brings_probe (c := Lease.giveBack ⟨k, token⟩) sound rfl fun s' removed e decided sound' here same => ?_
    refine ⟨sound', same, ?_, .ok removed, rfl⟩
    cases removed with
    | true =>
      rw [(Call.onEntry_remove_true decided).2] at here
      exact here
    | false =>
      obtain ⟨foreign, rfl⟩ := Call.onEntry_remove_false decided
      rw [here, Lone.filter_shows]
      cases there : s.shows (lockKey k) with
      | none => rfl
      | some e =>
        rw [there, Option.bind_some] at foreign
        exact absurd (ours e there) foreign
  unfold Lease.release
  refine Attempt.Brings.bind _ gives ?_ ?_
  · rintro s' reply ⟨sound', same, gone, -⟩
    exact Attempt.brings_pure ⟨sound', same, gone, rfl⟩
  · rintro s' why ⟨-, -, -, reply, is⟩
    cases is

end

end Turnstile
