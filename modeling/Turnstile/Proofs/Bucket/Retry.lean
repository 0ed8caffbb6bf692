import Turnstile.Proofs.Admission
import Turnstile.Proofs.Bucket.Throughput
import Turnstile.Proofs.Bucket.Wait
import Turnstile.Proofs.Service.Room

/-!
Coming back after a wait.

A bucket tells how long to wait for a cost, and a refused caller is told the same in whole seconds. Both are followed
here through a store that counts in doubles: the caller is refused, time passes while the store is asked for anything
but this bucket, and the caller comes back. It does not matter whether the bucket is still kept then, as a new one is
full.

The waits are honest only as far as `Limit.Waited` says, and only where the longest wait for the cost fits into the 64
bits in which it is reported. Beyond that a caller may be refused again who comes back in time.
-/

namespace Turnstile

namespace Bucket

/-- A bucket that began full and was asked for tokens by one limit, as it can be found at a moment. -/
inductive Reached (l : Limit) : Bucket Binary64 → Moment → Prop
  | full (now : Moment) : Reached l (full l now) now
  | later {b : Bucket Binary64} {now later : Moment} (reached : Reached l b now) (ahead : now ≤ later) : Reached l b later
  | take {b : Bucket Binary64} {now : Moment} (reached : Reached l b now) (cost : UInt32) :
    Reached l (b.take l cost now).1 now

/-- A bucket that was reached is counted: a full one is, and both waiting and taking leave it so. -/
theorem Reached.counted {l : Limit} (usable : l.fault? = none) {b : Bucket Binary64} {now : Moment}
    (reached : b.Reached l now) (shown : now.nanos < Moment.secondsLimit * nanosPerSecond) :
    ∃ held, b.Counted l now held := by
  induction reached with
  | full now => exact ⟨_, full_counted l now⟩
  | later reached ahead inductionHypothesis =>
    obtain ⟨held, counted⟩ := inductionHypothesis (lt_of_le_of_lt ahead shown)
    exact ⟨held, counted.later ahead⟩
  | take reached cost inductionHypothesis =>
    obtain ⟨held, counted⟩ := inductionHypothesis shown
    obtain ⟨left, remains, -⟩ := take_counted (Limit.usable_pos usable).2 counted shown cost
    exact ⟨left, remains⟩

end Bucket

/-- The bucket of an entry that is still there was its bucket before, as expiry changes no entry. -/
theorem Entry.bucket_of_filter {e : Option (Entry Binary64)} {passes : Entry Binary64 → Bool} {b : Bucket Binary64}
    (there : (e.filter passes).bind Entry.bucket? = some b) : e.bind Entry.bucket? = some b := by
  obtain ⟨entry, passed, held⟩ := Option.bind_eq_some_iff.mp there
  exact Option.bind_eq_some_iff.mpr ⟨entry, (Option.filter_eq_some_iff.mp passed).1, held⟩

/-- What is kept at an entry is a bucket that was reached, or no bucket. -/
def ReachedAt (l : Limit) (now : Moment) (e : Option (Entry Binary64)) : Prop :=
  ∀ b, e.bind Entry.bucket? = some b → b.Reached l now

namespace ReachedAt

variable {l : Limit} {now : Moment} {e : Option (Entry Binary64)}

/-- A take finds a bucket that was reached, be it the one at the entry or a full one. -/
theorem found (reached : ReachedAt l now e) : ((e.bind Entry.bucket?).getD (.full l now)).Reached l now := by
  cases there : e.bind Entry.bucket? with
  | none => exact .full now
  | some b => exact reached b there

/-- If the entry expires, there is no bucket any more, and nothing is claimed of none. -/
theorem filter (reached : ReachedAt l now e) (passes : Entry Binary64 → Bool) : ReachedAt l now (e.filter passes) :=
  fun b there => reached b (Entry.bucket_of_filter there)

/-- What was reached before is reached later, by waiting. -/
theorem later (reached : ReachedAt l now e) {later : Moment} (ahead : now ≤ later) : ReachedAt l later e :=
  fun b there => (reached b there).later ahead

/-- What a take leaves at an entry was reached, by that take from the bucket that it found. -/
theorem take (reached : ReachedAt l now e) {key : String} {cost : UInt32} {after : Option (Entry Binary64)} {grant : Grant}
    (decided : Call.onEntry now (.take key l cost) e = .ok (after, grant)) : ReachedAt l now after := by
  obtain ⟨bucket, span, expires, taken, -, -, rfl⟩ := Call.onEntry_take decided
  intro b there
  obtain rfl : bucket = b := Option.some.inj there
  have left := reached.found.take cost
  rwa [taken] at left

end ReachedAt

/-- A store after events. -/
def Store.after (s : Store Binary64) (now : Moment) : List Event → Store Binary64
  | [] => s
  | .pass nanos :: rest => s.after ⟨now.nanos + nanos⟩ rest
  | .ask q :: rest => (s.serve now q).1.after now rest

namespace Store

variable {s : Store Binary64} {l : Limit} {key : String} {now : Moment}

/-- A sound store that does not break down over a question keeps its interval between sweeps. Questions change entries,
and when the next sweep is due. -/
theorem serve_interval (sound : s.Sound) {q : Question} (fine : (s.serve now q).2.isBreakdown = false) :
    (s.serve now q).1.sweepInterval = s.sweepInterval := by
  cases q with
  | size => rfl
  | purge =>
    obtain ⟨next, -, same⟩ := swept_of_sound sound fine
    rw [same]
    rfl
  | call c =>
    have whole : (s.perform now c).1.isBroken = false := (serve_sound sound fine).unbroken
    obtain ⟨-, s', reply, performed, -, interval⟩ := answered_of_whole whole
    simp only [serve, performed]
    exact interval

/-- Without a breakdown a sound store stays sound, one question after the other. -/
theorem after_sound (sound : s.Sound) {events : List Event}
    (whole : ∀ seen ∈ history serve s now events, seen.2.isBreakdown = false) :
    (s.after now events).Sound ∧ (s.after now events).sweepInterval = s.sweepInterval := by
  induction events generalizing now s with
  | nil => exact ⟨sound, rfl⟩
  | cons event rest inductionHypothesis =>
    cases event with
    | pass nanos => exact inductionHypothesis sound whole
    | ask q =>
      obtain ⟨fine, whole'⟩ := history_whole whole
      obtain ⟨sound', interval⟩ := inductionHypothesis (serve_sound sound fine) whole'
      exact ⟨sound', interval.trans (serve_interval sound fine)⟩

/-- What is kept at a key that one limit takes at is a bucket that was reached. Each question at the key is such a take,
each other one leaves the key alone, and pauses drop the bucket at most. -/
theorem after_reached (sound : s.Sound) (reached : ReachedAt l now (s.live? now key)) {events : List Event}
    (only : OnlyTakes key l events) (whole : ∀ seen ∈ history serve s now events, seen.2.isBreakdown = false) :
    ReachedAt l (finish now events) ((s.after now events).live? (finish now events) key) := by
  induction events generalizing now s with
  | nil => exact reached
  | cons event rest inductionHypothesis =>
    cases event with
    | pass nanos =>
      have ahead : now ≤ ⟨now.nanos + nanos⟩ := Nat.le_add_right now.nanos nanos
      have shown := (reached.later ahead).filter (·.isLive ⟨now.nanos + nanos⟩)
      rw [← live?_later s ahead key] at shown
      exact inductionHypothesis sound shown only.later whole
    | ask q =>
      obtain ⟨fine, whole'⟩ := history_whole whole
      apply inductionHypothesis (serve_sound sound fine) _ only.later whole'
      cases concerned : (Event.ask q).concerns key with
      | false => rwa [(serve_elsewhere now sound.distinct concerned).2.1]
      | true =>
        obtain ⟨cost, rfl⟩ := only.take concerned
        obtain ⟨e, grant, -, decided, here⟩ := taken_of_sound sound fine
        have left := (reached.take decided).filter (·.isLive now)
        rw [← here] at left
        exact left

/-- Where nobody asks at a key, what is kept there stays until it expires. Each question leaves the key alone, and what
is not dropped in one pause may be dropped in a later one. -/
theorem after_apart (sound : s.Sound) {events : List Event}
    (apart : ∀ c, .ask (.call c) ∈ events → c.key? ≠ some key)
    (whole : ∀ seen ∈ history serve s now events, seen.2.isBreakdown = false) :
    (s.after now events).live? (finish now events) key = (s.live? now key).filter (·.isLive (finish now events)) := by
  induction events generalizing now s with
  | nil => exact live?_later s (Nat.le_refl _) key
  | cons event rest inductionHypothesis =>
    have apart' : ∀ c, .ask (.call c) ∈ rest → c.key? ≠ some key := fun c member => apart c (List.mem_cons_of_mem _ member)
    cases event with
    | pass nanos =>
      have ahead : now ≤ ⟨now.nanos + nanos⟩ := Nat.le_add_right now.nanos nanos
      have till := le_finish ⟨now.nanos + nanos⟩ rest
      have same : (s.live? ⟨now.nanos + nanos⟩ key).filter (·.isLive (finish ⟨now.nanos + nanos⟩ rest)) =
          (s.live? now key).filter (·.isLive (finish ⟨now.nanos + nanos⟩ rest)) := by
        unfold live?
        rw [filter_live _ till, filter_live _ (Nat.le_trans ahead till)]
      exact (inductionHypothesis sound apart' whole).trans same
    | ask q =>
      obtain ⟨fine, whole'⟩ := history_whole whole
      have elsewhere : (Event.ask q).concerns key = false := by
        cases q with
        | purge => rfl
        | size => rfl
        | call c => exact decide_eq_false (apart c List.mem_cons_self)
      have kept := inductionHypothesis (serve_sound sound fine) apart' whole'
      rwa [(serve_elsewhere now sound.distinct elsewhere).2.1] at kept

/-- A store answers a program of one caller, while nobody else comes in between. -/
def host (now : Moment) : Host (Store Binary64) Empty where
  call c s := s.perform now c
  fresh s := (s, "")
  work s := (s, .cancelled)

end Store

/-- What has room at a moment has room before, since it ends the earlier the earlier it begins. -/
theorem Span.FitsAfter.earlier {span : Span} {now later : Moment} (fits : span.FitsAfter later) (ahead : now ≤ later) :
    span.FitsAfter now := by
  have ahead' : now.nanos ≤ later.nanos := ahead
  unfold FitsAfter at fits ⊢
  omega

/-- A limit that has room at a moment has room before, for its buckets do. -/
theorem Limit.FitsAfter.earlier {l : Limit} {now later : Moment} (fits : l.FitsAfter later) (ahead : now ≤ later) :
    l.FitsAfter now := by
  obtain ⟨span, kept, spanFits⟩ := fits
  exact ⟨span, kept, spanFits.earlier ahead⟩

/-- A moment at which a limit has room is one that clocks can show, as a bucket that is kept then ends at no earlier
one. -/
theorem Limit.FitsAfter.shown {l : Limit} {now : Moment} (fits : l.FitsAfter now) :
    now.nanos < Moment.secondsLimit * nanosPerSecond := by
  obtain ⟨span, -, spanFits⟩ := fits
  unfold Span.FitsAfter at spanFits
  omega

namespace Throttle

/-- What a caller is told who asks for admission at a moment. -/
def ruling (t : Throttle) (s : Store Binary64) (now : Moment) (key : BucketKey) (p : Policy) :
    Store Binary64 × Exit (Except Failure Admission) :=
  (t.pass key p : Attempt Empty Admission).run.play (Store.host now) s

variable {t : Throttle} {s s' : Store Binary64} {now : Moment} {key : BucketKey} {p : Policy}

/-- A usable limit asks its bucket once, and the bucket's answer decides: to admit, to refuse with the seconds to wait,
or to let through without the store. -/
theorem ruling_eq (usable : p.limit.fault? = none) (coverable : p.cost ≤ p.limit.capacity) :
    t.ruling s now key p =
      match s.perform now (.take key.text p.limit p.cost) with
      | (s', .error why) => (s', .broke none why)
      | (s', .ok (.error failure)) =>
        (s', .finished (if t.letsThrough failure then .ok (unlimited p.limit.capacity) else .error failure))
      | (s', .ok (.ok grant)) =>
        if grant.granted then (s', .finished (.ok (t.admission p grant)))
        else
          match retryAfter grant.wait with
          | .ok seconds => (s', .finished (.error (.rateLimited seconds)))
          | .error why => (s', .broke none why) := by
  unfold ruling
  rw [pass_run usable coverable]
  simp only [Program.play, Store.host]
  rcases performed : s.perform now (.take key.text p.limit p.cost) with ⟨s', why | failure | grant⟩
  · rfl
  · rfl
  · unfold verdict
    dsimp only
    cases grant.granted
    · cases retryAfter grant.wait <;> rfl
    · rfl

/-- Where a take is answered, that answer decides. A refusal can always tell its wait in seconds. -/
theorem ruling_of_answered (usable : p.limit.fault? = none) (coverable : p.cost ≤ p.limit.capacity) {grant : Grant}
    (performed : s.perform now (.take key.text p.limit p.cost) = (s', .ok (.ok grant))) :
    (grant.granted = true → t.ruling s now key p = (s', .finished (.ok (t.admission p grant)))) ∧
      (grant.granted = false → ∃ seconds, retryAfter grant.wait = .ok seconds ∧
        t.ruling s now key p = (s', .finished (.error (.rateLimited seconds)))) := by
  rw [ruling_eq usable coverable, performed]
  dsimp only
  constructor
  · exact fun granted => if_pos granted
  · intro refused
    obtain ⟨seconds, told⟩ := retryAfter_ok grant
    refine ⟨seconds, told, ?_⟩
    rw [if_neg (by rw [refused]; decide), told]

/-- A wait is told in whole seconds, rounded up, and never as none. -/
theorem eq_of_retryAfter {wait : Span} {seconds : Nat} (told : retryAfter wait = .ok seconds) :
    seconds = max 1 (wait.seconds + if 0 < wait.subsecond then 1 else 0) := by
  unfold retryAfter at told
  dsimp only at told
  by_cases few : (wait.seconds + if 0 < wait.subsecond then 1 else 0) < spanSecondsLimit
  · rw [if_pos few] at told
    exact (Except.ok.inj told).symm
  · rw [if_neg few] at told
    cases told

/-- The seconds that a refused caller is told are no shorter than the wait, because they are rounded up and a wait of 64
bits is not cut. -/
theorem le_retryAfter {g : Grant} {seconds : Nat} (told : retryAfter g.wait = .ok seconds)
    (fits : g.waitNanos < word64Limit) : g.waitNanos ≤ seconds * nanosPerSecond := by
  have same : g.wait.nanos = g.waitNanos := Nat.mod_eq_of_lt fits
  have up : g.wait.nanos ≤ (g.wait.seconds + if 0 < g.wait.subsecond then 1 else 0) * nanosPerSecond := by
    unfold Span.seconds Span.subsecond nanosPerSecond
    split <;> omega
  rw [eq_of_retryAfter told, ← same]
  exact up.trans (Nat.mul_le_mul_right _ (Nat.le_max_right _ _))

/-- A sound store that counts in doubles, with room for its sweep and for the bucket, gives a ruling: admission where
the bucket meets the cost, else a wait. The take is decided by the bucket alone, and a bucket that was reached reports a
wait. -/
theorem ruling_of_reached (usable : p.limit.fault? = none) (coverable : p.cost ≤ p.limit.capacity)
    (timely : p.limit.longestWait p.cost < word64Limit) (sound : s.Sound)
    (reached : ReachedAt p.limit now (s.live? now key.text)) (sweeps : s.sweepInterval.FitsAfter now)
    (fits : p.limit.FitsAfter now) :
    ∃ s' left grant, ((((s.live? now key.text).bind Entry.bucket?).getD (.full p.limit now)).take p.limit p.cost now) =
        (left, .ok grant) ∧ grant.waitNanos < word64Limit ∧ s'.Sound ∧ s'.sweepInterval = s.sweepInterval ∧
      (∀ b, (s'.live? now key.text).bind Entry.bucket? = some b → b = left) ∧
      (grant.granted = true → t.ruling s now key p = (s', .finished (.ok (t.admission p grant)))) ∧
      (grant.granted = false → ∃ seconds, retryAfter grant.wait = .ok seconds ∧
        t.ruling s now key p = (s', .finished (.error (.rateLimited seconds)))) := by
  have shown := fits.shown
  obtain ⟨span, kept, spanFits⟩ := fits
  obtain ⟨held, counted⟩ := reached.found.counted usable shown
  obtain ⟨left, tokens, grant, taken, -, -, short, -⟩ := Bucket.take_reports usable timely counted shown
  obtain ⟨next, sweeps'⟩ := sweeps.now (Nat.le_refl _)
  obtain ⟨expires, expiry⟩ := spanFits.now (Nat.le_refl _)
  have decided : Call.onEntry now (.take key.text p.limit p.cost) (s.live? now key.text) =
      .ok (some ⟨.bucket left, expires⟩, grant) := by
    simp only [Call.onEntry, taken, kept, expiry, bind, Except.bind, pure, Except.pure]
  obtain ⟨s', performed, sound', interval, here, -⟩ :=
    Store.perform_decided sound sweeps' (show (Call.take key.text p.limit p.cost).key? = some key.text from rfl) decided
  refine ⟨s', left, grant, taken, short, sound', interval, ?_, ruling_of_answered usable coverable performed⟩
  intro b there
  rw [here] at there
  exact (Option.some.inj (Entry.bucket_of_filter there)).symm

/-- A caller that is refused has found the bucket short, and what it is told is the bucket's wait in seconds. The bucket
that it leaves is the only one that can be found later. -/
theorem ruling_refused (usable : p.limit.fault? = none) (coverable : p.cost ≤ p.limit.capacity)
    (timely : p.limit.longestWait p.cost < word64Limit) (sound : s.Sound)
    (reached : ReachedAt p.limit now (s.live? now key.text)) (sweeps : s.sweepInterval.FitsAfter now)
    (fits : p.limit.FitsAfter now) {seconds : Nat}
    (refused : t.ruling s now key p = (s', .finished (.error (.rateLimited seconds)))) :
    ∃ left grant, ((((s.live? now key.text).bind Entry.bucket?).getD (.full p.limit now)).take p.limit p.cost now) =
        (left, .ok grant) ∧ grant.waitNanos ≤ seconds * nanosPerSecond ∧ s'.Sound ∧ s'.sweepInterval = s.sweepInterval ∧
      ∀ b, (s'.live? now key.text).bind Entry.bucket? = some b → b = left := by
  obtain ⟨s₂, left, grant, taken, short, sound', interval, kept, granted, denied⟩ :=
    ruling_of_reached (t := t) usable coverable timely sound reached sweeps fits
  have refusal : grant.granted = false := by
    rw [← Bool.not_eq_true]
    intro gained
    rw [granted gained] at refused
    cases refused
  obtain ⟨seconds', told, ruled⟩ := denied refusal
  rw [ruled] at refused
  cases refused
  exact ⟨left, grant, taken, le_retryAfter told short, sound', interval, kept⟩

end Throttle

variable {p : Policy}

/-- What a bucket that was reached reports and leaves: a wait after which it meets the cost, as long as nobody takes. A
take at such a moment is granted, and a cost that is met once stays met. -/
theorem Bucket.Reached.waits (usable : p.limit.fault? = none) (coverable : p.cost ≤ p.limit.capacity)
    (timely : p.limit.longestWait p.cost < word64Limit) {b : Bucket Binary64} {now : Moment}
    (reached : b.Reached p.limit now) (shown : now.nanos < Moment.secondsLimit * nanosPerSecond) :
    ∃ left grant, b.take p.limit p.cost now = (left, .ok grant) ∧
      ∀ later : Moment, now ≤ later → later.nanos < Moment.secondsLimit * nanosPerSecond →
        (∀ sooner, now ≤ sooner → sooner ≤ later → left.Meets p.limit p.cost sooner → left.Meets p.limit p.cost later) ∧
        (p.limit.Waited grant.waitNanos (later.since now) →
          left.Meets p.limit p.cost later ∧
            ∃ rest grant', left.take p.limit p.cost later = (rest, .ok grant') ∧ grant'.granted = true) := by
  obtain ⟨held, counted⟩ := reached.counted usable shown
  obtain ⟨left, tokens, grant, taken, remains, asOf, -, long⟩ := Bucket.take_reports usable timely counted shown
  refine ⟨left, grant, taken, ?_⟩
  intro later ahead shown'
  constructor
  · intro sooner after before meets
    exact meets.later usable coverable (remains.later after) before shown'
  · intro waited
    have meets := Bucket.meets_of_waited usable coverable timely remains asOf long waited ahead shown'
    obtain ⟨rest, -, grant', taken', -⟩ := Bucket.take_reports usable timely (remains.later ahead) shown'
    exact ⟨meets, rest, grant', taken', (Bucket.granted_iff taken').mpr meets⟩

/-- Waits are honest but for rounding. A bucket that was reached reports a wait for every cost that the capacity covers,
if the longest one fits into 64 bits. If nobody takes from it meanwhile, it meets the cost at every moment at which the
wait is over for sure, and a take is granted then; and a cost that is met once stays met. So a caller who is refused and
comes back after the seconds it was told is admitted, whatever the store was asked at other keys and whether or not the
bucket has expired. -/
theorem waits_are_honest_but_for_rounding (usable : p.limit.fault? = none) (coverable : p.cost ≤ p.limit.capacity)
    (timely : p.limit.longestWait p.cost < word64Limit) :
    (∀ {b : Bucket Binary64} {now : Moment}, b.Reached p.limit now →
      now.nanos < Moment.secondsLimit * nanosPerSecond →
      ∃ left grant, b.take p.limit p.cost now = (left, .ok grant) ∧
        ∀ later : Moment, now ≤ later → later.nanos < Moment.secondsLimit * nanosPerSecond →
          (∀ sooner, now ≤ sooner → sooner ≤ later → left.Meets p.limit p.cost sooner →
            left.Meets p.limit p.cost later) ∧
          (p.limit.Waited grant.waitNanos (later.since now) →
            left.Meets p.limit p.cost later ∧
              ∃ rest grant', left.take p.limit p.cost later = (rest, .ok grant') ∧ grant'.granted = true)) ∧
    ∀ (t : Throttle) (key : BucketKey) {s s' : Store Binary64} {start now later : Moment} {before meanwhile : List Event}
        {seconds : Nat},
      s.Sound → s.live? start key.text = none → OnlyTakes key.text p.limit before →
      (∀ seen ∈ history Store.serve s start before, seen.2.isBreakdown = false) → finish start before = now →
      t.ruling (s.after start before) now key p = (s', .finished (.error (.rateLimited seconds))) →
      (∀ c, .ask (.call c) ∈ meanwhile → c.key? ≠ some key.text) →
      (∀ seen ∈ history Store.serve s' now meanwhile, seen.2.isBreakdown = false) → finish now meanwhile = later →
      s.sweepInterval.FitsAfter later → p.limit.FitsAfter later →
      p.limit.Waited (seconds * nanosPerSecond) (later.since now) →
      ∃ s'' admission, t.ruling (s'.after now meanwhile) later key p = (s'', .finished (.ok admission)) := by
  constructor
  · intro b now reached shown
    exact reached.waits usable coverable timely shown
  · intro t key s s' start now later before meanwhile seconds sound free only whole till refused apart whole' till' sweeps
      fits waited
    have ahead : now ≤ later := till' ▸ le_finish now meanwhile
    have reached : ReachedAt p.limit start (s.live? start key.text) := by
      intro b there
      rw [free] at there
      cases there
    obtain ⟨sound₁, interval₁⟩ := Store.after_sound sound whole
    have reached₁ := Store.after_reached sound reached only whole
    rw [till] at reached₁
    obtain ⟨left, grant, taken, told, sound₂, interval₂, kept⟩ := Throttle.ruling_refused usable coverable timely sound₁
      reached₁ (interval₁ ▸ sweeps.earlier ahead) (fits.earlier ahead) refused
    -- after the wait the bucket meets the cost, or there is a new one
    obtain ⟨left', grant', taken', waits⟩ := reached₁.found.waits usable coverable timely (fits.earlier ahead).shown
    rw [taken] at taken'
    cases taken'
    obtain ⟨sound₃, interval₃⟩ := Store.after_sound sound₂ whole'
    have shown₃ := Store.after_apart sound₂ apart whole'
    rw [till'] at shown₃
    have found (b : Bucket Binary64)
        (there : ((s'.after now meanwhile).live? later key.text).bind Entry.bucket? = some b) : b = left := by
      rw [shown₃] at there
      exact kept b (Entry.bucket_of_filter there)
    have reached₃ : ReachedAt p.limit later ((s'.after now meanwhile).live? later key.text) := by
      intro b there
      rw [found b there]
      have remains := reached₁.found.take p.cost
      rw [taken] at remains
      exact remains.later ahead
    obtain ⟨s₄, left₄, grant₄, taken₄, -, -, -, -, granted₄, -⟩ :=
      Throttle.ruling_of_reached (t := t) usable coverable timely sound₃ reached₃
        (interval₃.trans (interval₂.trans interval₁) ▸ sweeps) fits
    refine ⟨s₄, _, granted₄ ((Bucket.granted_iff taken₄).mpr ?_)⟩
    cases there : ((s'.after now meanwhile).live? later key.text).bind Entry.bucket? with
    | none => exact Bucket.full_meets coverable later
    | some b =>
      rw [found b there]
      exact ((waits later ahead fits.shown).2 (waited.shorter told)).1

/-- The seconds that a refused caller is told. -/
def Exit.seconds? {α : Type} : Exit (Except Failure α) → Option Nat
  | .finished (.error (.rateLimited seconds)) => some seconds
  | _ => none

/-- A ruling that tells seconds is a refusal with these seconds. -/
theorem Throttle.ruling_of_seconds {t : Throttle} {s : Store Binary64} {now : Moment} {key : BucketKey} {seconds : Nat}
    (told : (t.ruling s now key p).2.seconds? = some seconds) :
    t.ruling s now key p = ((t.ruling s now key p).1, .finished (.error (.rateLimited seconds))) := by
  generalize t.ruling s now key p = ruling at told ⊢
  obtain ⟨left, exit⟩ := ruling
  simp only [Exit.seconds?] at told
  split at told
  · cases told
    rfl
  · cases told

/-- Fifteen tokens at most, and one more every period. All of them are asked for at once. -/
def allOf (period : Nat) : Policy := ⟨⟨15, 1, .ofNanosWithin period⟩, 15, .ofNat 1, none⟩

/-- Requests are held back for a second at most. -/
def shortDelays : Throttle := ⟨.ofSeconds 1, .closed⟩

/-- A store that has not been asked for anything. -/
def untouched : Store Binary64 := ⟨.empty, ⟨60000000000⟩, .ofSeconds 60, false⟩

/-- All tokens are taken. -/
def allTaken (period : Nat) : List Event := [.ask (.call (.take "b" (allOf period).limit 15))]

/-- The one call is a take for the limit. -/
theorem onlyTakes_allTaken (period : Nat) : OnlyTakes "b" (allOf period).limit (allTaken period) := by
  intro c member touched
  simp only [allTaken, List.mem_singleton, Event.ask.injEq, Question.call.injEq] at member
  exact ⟨15, member⟩

/-- Somebody else uses the store, and time passes. -/
def pause (nanos : Nat) : List Event := [.ask (.call (.set "a" "other" (.ofSeconds 5))), .pass nanos, .ask .purge, .ask .size]

/-- In the pause the store is asked at another key only. -/
theorem pause_apart (nanos : Nat) : ∀ c, .ask (.call c) ∈ pause nanos → c.key? ≠ some "b" := by
  intro c member
  simp only [pause, List.mem_cons, List.not_mem_nil, or_false, Event.ask.injEq, Question.call.injEq, reduceCtorEq] at member
  subst member
  decide

/-- The pause lasts as long as it says. -/
theorem finish_pause (nanos : Nat) : finish ⟨0⟩ (pause nanos) = ⟨nanos⟩ := by
  simp [pause, finish]

/-- Whoever is refused comes back after the seconds it was told, and is admitted. -/
def AdmittedAfter (period seconds nanos : Nat) : Prop :=
  ∃ s' s'' admission,
    shortDelays.ruling (untouched.after ⟨0⟩ (allTaken period)) ⟨0⟩ ⟨"b"⟩ (allOf period) =
        (s', .finished (.error (.rateLimited seconds))) ∧
      shortDelays.ruling (s'.after ⟨0⟩ (pause nanos)) ⟨nanos⟩ ⟨"b"⟩ (allOf period) = (s'', .finished (.ok admission))

/-- After two and a half seconds for each token it is enough to wait as long as told. After 2.2 seconds for each it takes
a nanosecond more, and after ten years there is a new bucket. -/
theorem waits_are_honest_but_for_rounding_fifteenTokens :
    AdmittedAfter 2500000000 38 38000000000 ∧ AdmittedAfter 2200000000 33 33000000001 ∧
      AdmittedAfter 2500000000 38 315360000000000000 := by
  have admitted (period seconds nanos : Nat) (usable : (allOf period).limit.fault? = none)
      (timely : (allOf period).limit.longestWait 15 < word64Limit)
      (told : (shortDelays.ruling (untouched.after ⟨0⟩ (allTaken period)) ⟨0⟩ ⟨"b"⟩ (allOf period)).2.seconds? =
        some seconds)
      (whole : ∀ seen ∈ history Store.serve untouched ⟨0⟩ (allTaken period), seen.2.isBreakdown = false)
      (whole' : ∀ seen ∈ history Store.serve
        (shortDelays.ruling (untouched.after ⟨0⟩ (allTaken period)) ⟨0⟩ ⟨"b"⟩ (allOf period)).1 ⟨0⟩ (pause nanos),
        seen.2.isBreakdown = false)
      (kept : ∃ span, (allOf period).limit.keep = .ok span ∧ span.FitsAfter ⟨nanos⟩)
      (sweeps : untouched.sweepInterval.FitsAfter ⟨nanos⟩)
      (waited : (allOf period).limit.Waited (seconds * nanosPerSecond) nanos) : AdmittedAfter period seconds nanos := by
    have coverable : (allOf period).cost ≤ (allOf period).limit.capacity := UInt32.le_refl 15
    have sound : untouched.Sound := ⟨rfl, Table.distinct_empty⟩
    have refused := Throttle.ruling_of_seconds told
    obtain ⟨s'', admission, ruled⟩ := (waits_are_honest_but_for_rounding usable coverable timely).2 shortDelays ⟨"b"⟩ sound
      rfl (onlyTakes_allTaken period) whole rfl refused (pause_apart nanos) whole' (finish_pause nanos) sweeps kept waited
    exact ⟨_, s'', admission, refused, ruled⟩
  refine ⟨?_, ?_, ?_⟩
  · exact admitted _ _ _ (by decide) (by decide) (by decide +kernel) (by decide +kernel) (by decide +kernel)
      ⟨_, rfl, by decide⟩ (by decide) (by decide)
  · exact admitted _ _ _ (by decide) (by decide) (by decide +kernel) (by decide +kernel) (by decide +kernel)
      ⟨_, rfl, by decide⟩ (by decide) (by decide)
  · exact admitted _ _ _ (by decide) (by decide) (by decide +kernel) (by decide +kernel) (by decide +kernel)
      ⟨_, rfl, by decide⟩ (by decide) (by decide)

/-- The wait alone is no promise: some buckets do not meet the cost when it is over. With a token every 2.2 seconds,
fifteen tokens are said to be there after thirty-three seconds, and the doubles count a little less than fifteen then. -/
theorem advertised_wait_is_short_unevenPeriods :
    (¬ ∀ {l : Limit} {cost : UInt32} {b left : Bucket Binary64} {grant : Grant} {now later : Moment},
      l.fault? = none → cost ≤ l.capacity → b.Reached l now → b.take l cost now = (left, .ok grant) →
        now.nanos + grant.waitNanos ≤ later.nanos → left.Meets l cost later) ∧
    ∃ s s' : Store Binary64,
      shortDelays.ruling (untouched.after ⟨0⟩ (allTaken 2200000000)) ⟨0⟩ ⟨"b"⟩ (allOf 2200000000) =
          (s, .finished (.error (.rateLimited 33))) ∧
        shortDelays.ruling s ⟨33000000000⟩ ⟨"b"⟩ (allOf 2200000000) = (s', .finished (.error (.rateLimited 3))) := by
  constructor
  · intro honest
    have usable : (allOf 2200000000).limit.fault? = none := by decide
    have reached : (Bucket.full (allOf 2200000000).limit ⟨0⟩).Reached (allOf 2200000000).limit ⟨0⟩ := .full ⟨0⟩
    have reported : ((Bucket.full (allOf 2200000000).limit ⟨0⟩ : Bucket Binary64).take (allOf 2200000000).limit 15 ⟨0⟩).2 =
        .ok ⟨true, 0, 33000000000⟩ := by decide +kernel
    have short : (((Bucket.full (allOf 2200000000).limit ⟨0⟩ : Bucket Binary64).take (allOf 2200000000).limit 15
        ⟨0⟩).1.refill (allOf 2200000000).limit ⟨33000000000⟩).covers 15 = false := by decide +kernel
    generalize taken : (Bucket.full (allOf 2200000000).limit ⟨0⟩ : Bucket Binary64).take (allOf 2200000000).limit 15 ⟨0⟩
      = outcome at reported short
    obtain ⟨left, report⟩ := outcome
    obtain rfl : report = .ok ⟨true, 0, 33000000000⟩ := reported
    have meets : left.Meets (allOf 2200000000).limit 15 ⟨33000000000⟩ :=
      honest usable (UInt32.le_refl 15) reached taken (Nat.le_refl _)
    exact absurd (short.symm.trans meets) (by decide)
  · have first : (shortDelays.ruling (untouched.after ⟨0⟩ (allTaken 2200000000)) ⟨0⟩ ⟨"b"⟩ (allOf 2200000000)).2.seconds? =
        some 33 := by decide +kernel
    have second : (shortDelays.ruling
        (shortDelays.ruling (untouched.after ⟨0⟩ (allTaken 2200000000)) ⟨0⟩ ⟨"b"⟩ (allOf 2200000000)).1 ⟨33000000000⟩
          ⟨"b"⟩ (allOf 2200000000)).2.seconds? = some 3 := by decide +kernel
    exact ⟨_, _, Throttle.ruling_of_seconds first, Throttle.ruling_of_seconds second⟩

/-- A wait of 584 years is reported as less than a second. -/
example : ((Bucket.full ⟨1, 1, .ofSeconds 18446744074⟩ ⟨0⟩ : Bucket Binary64).take ⟨1, 1, .ofSeconds 18446744074⟩ 1 ⟨0⟩).2 =
    .ok ⟨true, 0, 290448384⟩ := by decide +kernel

end Turnstile
