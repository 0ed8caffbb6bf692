import Turnstile.Proofs.Limit
import Turnstile.Proofs.Store.Serving

/-!
Room for what a store is asked.

A store breaks down when a span or a moment leaves its range, and only then. Up to some last moment a call has room
if what it keeps expires at a moment that a clock can show, whenever it is made. A limit has room if its buckets do.
That says nothing of the span that a grant reports, nor of buckets that have been there before: the wait has a span
because tokens are a count, and every bucket in a store that began empty holds a count.

The main statement is that a store with room for its sweeps answers every call that has room.
-/

namespace Turnstile

/-- What lasts for a span from a moment on ends while clocks can show it. -/
def Span.FitsAfter (s : Span) (last : Moment) : Prop :=
  last.nanos + s.nanos < Moment.secondsLimit * nanosPerSecond

instance (s : Span) (last : Moment) : Decidable (s.FitsAfter last) :=
  inferInstanceAs (Decidable (_ < _))

/-- Buckets with this limit can be kept. -/
def Limit.FitsAfter (l : Limit) (last : Moment) : Prop := ∃ span, l.keep = .ok span ∧ span.FitsAfter last

/-- What a call keeps can be kept, whenever it is made up to a moment. -/
def Call.FitsAfter (last : Moment) : Call → Prop
  | .set _ _ life | .setIfAbsent _ _ life | .compareAndSet _ _ _ life => life.FitsAfter last
  | .take _ limit cost => limit.fault? = none ∧ cost ≤ limit.capacity ∧ limit.FitsAfter last
  | .get _ | .delete _ | .deleteIfEquals _ _ | .ping => True

/-- What lasts for a span from a moment on ends while clocks can show it exactly if the store can tell when it ends. -/
theorem Span.fitsAfter_iff {s : Span} {last : Moment} : s.FitsAfter last ↔ ∃ next, Store.later last s = .ok next := by
  unfold FitsAfter Store.later Moment.after?
  split_ifs with inside
  · exact ⟨fun _ => ⟨_, rfl⟩, fun _ => inside⟩
  · exact ⟨fun fits => absurd fits inside, fun ⟨_, is⟩ => by cases is⟩

/-- Up to the last moment a span has room, for it ends the earlier the earlier it begins. -/
theorem Span.FitsAfter.now {s : Span} {now last : Moment} (fits : s.FitsAfter last) (soon : now ≤ last) :
    ∃ next, Store.later now s = .ok next := by
  obtain ⟨next, room⟩ := fitsAfter_iff.mp fits
  exact Store.later_room soon room

namespace Bucket

/-- Its tokens are a count. -/
def Counts (b : Bucket Binary64) : Prop := b.tokens.Unsigned

variable {b : Bucket Binary64} {l : Limit} {cost : UInt32} {now : Moment}

/-- The tokens of a full bucket are a count, as its capacity is a natural number. -/
theorem full_counts (l : Limit) (now : Moment) : (full l now : Bucket Binary64).Counts :=
  Binary64.ofNat_unsigned _

/-- A full bucket covers what its capacity covers: both are counts of 32 bits, and those are compared exactly. -/
theorem full_covers (coverable : cost ≤ l.capacity) (now : Moment) :
    (full l now : Bucket Binary64).covers cost = true :=
  Binary64.ofNat_le (UInt32.le_iff_toNat_le.mp coverable) (Limit.count_exact _)

/-- A full bucket grants what its capacity covers. No time has passed, so the refill leaves the bucket as it is. -/
theorem full_grants (coverable : cost ≤ l.capacity) {grant : Grant}
    (taken : (full l now : Bucket Binary64).take l cost now = (b, .ok grant)) : grant.granted = true := by
  have same : (full l now : Bucket Binary64).refill l now = full l now :=
    if_pos (Nat.sub_self _)
  simp only [take, same, report] at taken
  injection taken with _ reported
  split at reported
  · cases reported
  · cases reported
    exact full_covers coverable now

/-- Seconds are a count, being a sum and a quotient of counts. -/
theorem seconds_unsigned (nanos : Nat) : (secondsNumber nanos : Binary64).Unsigned :=
  Binary64.add_unsigned (Binary64.ofNat_unsigned _)
    (Binary64.div_unsigned (Binary64.ofNat_unsigned _) (Binary64.ofNat_unsigned _))

/-- A refill leaves a count: what it brings is one, and the sum is cut off at one. -/
theorem refill_counts (counts : b.Counts) (l : Limit) (now : Moment) : (b.refill l now).Counts := by
  have gained (elapsed : Nat) : Binary64.Unsigned (TokenNumber.mul
      (TokenNumber.div (secondsNumber elapsed) (secondsNumber l.period.nanos)) (TokenNumber.ofNat l.refill.toNat)) :=
    Binary64.mul_unsigned (Binary64.div_unsigned (seconds_unsigned _) (seconds_unsigned _)) (Binary64.ofNat_unsigned _)
  unfold refill
  dsimp only
  split_ifs
  · exact counts
  · exact Binary64.least_unsigned (Binary64.add_unsigned counts (gained _)) (Binary64.ofNat_unsigned _)

/-- Spending leaves a count, since nothing is taken out of a bucket that does not cover it. -/
theorem spend_counts (counts : b.Counts) (cost : UInt32) : (b.spend cost).Counts := by
  unfold spend
  split_ifs with covered
  · exact Binary64.sub_unsigned counts (Binary64.ofNat_unsigned _) covered
  · exact counts

/-- Whoever asks a bucket that counts gets a grant, if the bucket can be kept and covers the cost when it is full. The
wait is all that could be out of range, and it has a span because what is left is a count. -/
theorem take_ok (counts : b.Counts) (usable : l.fault? = none) {span : Span} (kept : l.keep = .ok span)
    (coverable : cost ≤ l.capacity) (now : Moment) :
    (b.take l cost now).1.Counts ∧ ∃ grant, (b.take l cost now).2 = .ok grant := by
  have left : (b.take l cost now).1.Counts := spend_counts (refill_counts counts l now) cost
  obtain ⟨wait, is⟩ := Limit.waitFor_ok usable kept left coverable
  refine ⟨left, ?_⟩
  simp only [take] at is ⊢
  simp only [report, is]
  exact ⟨_, rfl⟩

end Bucket

/-- What is kept is no bucket, or one that counts. -/
def Entry.Counts (e : Entry Binary64) : Prop := ∀ b, e.bucket? = some b → b.Counts

/-- A text is no bucket, so there is nothing to count in it. -/
theorem Entry.text_counts (value : String) (expires : Moment) : (⟨.text value, expires⟩ : Entry Binary64).Counts := by
  intro b is
  cases is

/-- A call that has room is decided, and leaves no bucket that does not count. Only moments of expiry, waits and the
time that a bucket is kept can be out of range, and there is room for each of them. -/
theorem Call.onEntry_fits {c : Call} {now last : Moment} (fits : c.FitsAfter last) (soon : now ≤ last)
    {before : Option (Entry Binary64)} (counts : ∀ e, before = some e → e.Counts) :
    ∃ after reply, c.onEntry now before = .ok (after, reply) ∧ ∀ e, after = some e → e.Counts := by
  have written {ρ : Type} {life : Span} (fits : life.FitsAfter last) (value : String) (reply : ρ) :
      ∃ after reply', (do return (some ⟨.text value, ← Store.later now life⟩, reply) :
          Except Breakdown (Option (Entry Binary64) × ρ)) = .ok (after, reply') ∧ ∀ e, after = some e → e.Counts := by
    obtain ⟨expires, room⟩ := fits.now soon
    refine ⟨some ⟨.text value, expires⟩, reply, by rw [room]; rfl, fun e is => ?_⟩
    cases is
    exact Entry.text_counts value expires
  cases c with
  | get key => exact ⟨before, _, rfl, counts⟩
  | set key value life => exact written fits value ()
  | setIfAbsent key value life =>
    simp only [onEntry]
    split_ifs
    · exact ⟨before, false, rfl, counts⟩
    · exact written fits value true
  | compareAndSet key expected value life =>
    simp only [onEntry]
    split_ifs
    · exact written fits value true
    · exact ⟨before, false, rfl, counts⟩
  | delete key => exact ⟨none, _, rfl, fun e is => by cases is⟩
  | deleteIfEquals key expected =>
    simp only [onEntry]
    split_ifs
    · exact ⟨none, true, rfl, fun e is => by cases is⟩
    · exact ⟨before, false, rfl, counts⟩
  | take key limit cost =>
    obtain ⟨usable, coverable, span, kept, spanFits⟩ := fits
    have asked : ((before.bind Entry.bucket?).getD (.full limit now)).Counts := by
      cases is : before.bind Entry.bucket? with
      | none => exact Bucket.full_counts limit now
      | some b =>
        obtain ⟨e, there, holds⟩ := Option.bind_eq_some_iff.mp is
        exact counts e there b holds
    obtain ⟨left, grant, granted⟩ := Bucket.take_ok asked usable kept coverable now
    obtain ⟨expires, room⟩ := spanFits.now soon
    simp only [onEntry, granted, kept, room, bind, Except.bind, pure, Except.pure]
    refine ⟨_, _, rfl, fun e is => ?_⟩
    cases is
    intro b holds
    cases holds
    exact left
  | ping => exact ⟨before, _, rfl, counts⟩

namespace Store

/-- A sound store whose live buckets count, with room for its sweeps. -/
structure Roomy (last : Moment) (now : Moment) (s : Store Binary64) : Prop where
  sound : s.Sound
  sweeps : s.sweepInterval.FitsAfter last
  counts : ∀ key e, s.live? now key = some e → e.Counts

variable {s : Store Binary64} {now last : Moment}

/-- With room for its sweeps a store can be opened. It has room from then on, as there is no bucket in it. -/
theorem empty_roomy {start : Moment} {interval : Span} (fits : interval.FitsAfter last) (ahead : start ≤ last) :
    ∃ s, Store.empty start interval = .ok s ∧ s.Roomy last start := by
  obtain ⟨next, reached⟩ := fits.now ahead
  have opened : (Store.empty start interval : Except Breakdown (Store Binary64)) =
      .ok { entries := .empty, nextSweep := next, sweepInterval := interval, isBroken := false } := by
    unfold Store.empty
    rw [reached]
    rfl
  obtain ⟨sound, -, nothing⟩ := empty_ok opened
  exact ⟨_, opened, {
    sound := sound
    sweeps := fits
    counts := fun key e there => by
      rw [nothing start key] at there
      cases there }⟩

/-- A store with room keeps it as time passes, since nothing comes to light later that was not live before. -/
theorem Roomy.later {later : Moment} (roomy : s.Roomy last now) (ahead : now ≤ later) : s.Roomy last later where
  sound := roomy.sound
  sweeps := roomy.sweeps
  counts key e there := by
    rw [live?_later s ahead] at there
    exact roomy.counts key e (Option.filter_eq_some_iff.mp there).1

/-- A store with room for its sweeps answers every call that has room, and goes on to do so: the call leaves a bucket
that counts at its key, and all other keys as they were. -/
theorem Roomy.perform (roomy : s.Roomy last now) (soon : now ≤ last) {c : Call} (fits : c.FitsAfter last) :
    ∃ s' reply, s.perform now c = (s', .ok (.ok reply)) ∧ s'.Roomy last now := by
  cases touched : c.key? with
  | none =>
    cases c <;> cases touched
    exact ⟨s, _, rfl, roomy⟩
  | some key =>
    obtain ⟨_, room⟩ := roomy.sweeps.now soon
    obtain ⟨after, reply, decided, counts⟩ := Call.onEntry_fits fits soon (roomy.counts key)
    obtain ⟨s', performed, sound, interval, here, others⟩ := perform_decided roomy.sound room touched decided
    have counts' (k : String) (e : Entry Binary64) (there : s'.live? now k = some e) : e.Counts := by
      by_cases same : k = key
      · rw [same, here] at there
        exact counts e (Option.filter_eq_some_iff.mp there).1
      · rw [others k same] at there
        exact roomy.counts k e there
    exact ⟨s', reply, performed, { sound := sound, sweeps := interval ▸ roomy.sweeps, counts := counts' }⟩

/-- A store with room for its sweeps has it after a purge, which shows what was shown before. -/
theorem Roomy.purge (roomy : s.Roomy last now) (soon : now ≤ last) : (s.purge now).1.Roomy last now := by
  obtain ⟨_, room⟩ := roomy.sweeps.now soon
  obtain ⟨s', _, purged, sound, interval, shown⟩ := purge_ok roomy.sound room
  rw [purged]
  exact {
    sound := sound
    sweeps := interval ▸ roomy.sweeps
    counts := fun key e there => roomy.counts key e (shown key ▸ there) }

/-- A purge that does not break the store has room for the next sweep, for it has set when that is due. -/
theorem fits_of_purged (unbroken : (s.purge last).1.isBroken = false) : s.sweepInterval.FitsAfter last := by
  rw [Span.fitsAfter_iff]
  cases room : Store.later last s.sweepInterval with
  | ok next => exact ⟨next, rfl⟩
  | error why =>
    simp only [purge, change, room, bind, Except.bind] at unbroken
    split_ifs at unbroken with broken
    exact absurd (broken.symm.trans unbroken) (by decide)

end Store

end Turnstile
