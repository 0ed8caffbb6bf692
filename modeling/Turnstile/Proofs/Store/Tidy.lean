import Turnstile.Proofs.Bucket.Retry

/-!
How long a store keeps what has expired.

An access removes an expired entry at its own key only, unless a sweep is due. So expired entries stay for a while, and this
module says for how long. `Tidy` relates the three moments that move: when the entries expire, when the next sweep is due,
and now. The next sweep is no further ahead than an interval, and no entry has been expired for longer than an interval when
it is due. Every question keeps it so, and an access leaves the next sweep ahead.

Nothing here is about what a store shows. That its cleaning can not be seen is said elsewhere.
-/

namespace Turnstile

/-- A text or a bucket that a call leaves is the one that was there, or does not expire before now. What is written is
given a time that is ahead by its life, and nothing else that a call does moves an expiry. -/
theorem Call.onEntry_expires {α : Type} [TokenNumber α] {now : Moment} {c : Call} {before : Option (Entry α)}
    {e : Entry α} {reply : c.Reply} (decided : c.onEntry now before = .ok (some e, reply)) :
    before = some e ∨ now ≤ e.expires := by
  have ahead {life : Span} {expires : Moment} (reached : Store.later now life = .ok expires) : now ≤ expires := by
    have nanos := Store.later_nanos reached
    change now.nanos ≤ expires.nanos
    omega
  cases leaves_of_onEntry decided with
  | kept => exact .inl rfl
  | written c value life expires writes reached => exact .inr (ahead reached)
  | taken key limit cost grant bucket span expires took lasts reached => exact .inr (ahead reached)

namespace Store

variable {α : Type} {s s' base : Store α} {now : Moment} {key k : String} {interval : Span}

/-- The entries of the second store are among those of the first. -/
def Thins (s s' : Store α) : Prop := ∀ p ∈ s'.entries.pairs, p ∈ s.entries.pairs

/-- Settling adds no entries and keeps the live ones. Before a call is answered a sweep may be made, or the entry at the
key taken out that has expired. -/
theorem settled_thins (distinct : s.entries.Distinct) (settled : s.settled now key = .ok base) :
    s.Thins base ∧ ∀ p ∈ s.entries.pairs, now < p.2.expires → p ∈ base.entries.pairs := by
  obtain ⟨same, -, -⟩ := settled_ok distinct settled
  constructor
  · obtain ⟨next, -, rfl⟩ | ⟨-, ⟨rfl, -⟩ | ⟨rfl, -⟩⟩ := settled_cases settled
    · exact fun p among => List.mem_of_mem_filter among
    · exact fun p among => among
    · exact fun p among => List.mem_of_mem_filter among
  · rintro ⟨k, e⟩ among live
    have shown : s.live? now k = some e :=
      Option.filter_eq_some_iff.mpr ⟨(Table.mem_pairs_iff distinct k e).mp among, decide_eq_true live⟩
    rw [← same k] at shown
    exact Table.mem_of_find? (Option.filter_eq_some_iff.mp shown).1

/-- A store in which expired entries do not pile up. -/
structure Tidy (interval : Span) (now : Moment) (s : Store α) : Prop where
  sound : s.Sound
  spaced : s.sweepInterval = interval
  scheduled : s.nextSweep.nanos ≤ now.nanos + interval.nanos
  fresh : ∀ p ∈ s.entries.pairs, s.nextSweep.nanos ≤ p.2.expires.nanos + interval.nanos

/-- A store that has just been opened has no entries, and its first sweep is an interval ahead. -/
theorem empty_tidy {start : Moment} (opened : Store.empty start interval = .ok s) : s.Tidy interval start := by
  obtain ⟨sound, spaced, -⟩ := empty_ok opened
  unfold Store.empty at opened
  cases reached : later start interval with
  | error why =>
    rw [reached] at opened
    cases opened
  | ok next =>
    rw [reached] at opened
    cases opened
    exact {
      sound := sound
      spaced := spaced
      scheduled := (later_nanos reached).le
      fresh := fun p among => absurd among List.not_mem_nil }

/-- Time does not make a store untidy: the bound on the next sweep grows with it, and the others do not depend on it. -/
theorem Tidy.later {later : Moment} (tidy : s.Tidy interval now) (ahead : now ≤ later) : s.Tidy interval later where
  sound := tidy.sound
  spaced := tidy.spaced
  scheduled := tidy.scheduled.trans (Nat.add_le_add_right ahead _)
  fresh := tidy.fresh

/-- After a sweep every entry is live and the next sweep is an interval ahead, so that each entry expires less than an
interval before it, or later. -/
theorem Tidy.swept {next : Moment} (tidy : s.Tidy interval now) (reached : Store.later now s.sweepInterval = .ok next) :
    ({ s.swept now with nextSweep := next } : Store α).Tidy interval now ∧ next.nanos = now.nanos + interval.nanos := by
  have nanos := later_nanos reached
  rw [tidy.spaced] at nanos
  have fresh : ∀ p ∈ (s.swept now).entries.pairs, next.nanos ≤ p.2.expires.nanos + interval.nanos := by
    intro p among
    have live : now < p.2.expires := of_decide_eq_true (List.mem_filter.mp among).2
    have live' : now.nanos < p.2.expires.nanos := live
    omega
  refine ⟨?_, nanos⟩
  exact {
    sound := ⟨tidy.sound.unbroken, Table.distinct_keep _ tidy.sound.distinct _⟩
    spaced := tidy.spaced
    scheduled := nanos.le
    fresh := fresh }

/-- Settling keeps a store tidy, and the next sweep is ahead then: either it was, or a sweep has been made and has put
it an interval ahead, which is some time. -/
theorem Tidy.settled (tidy : s.Tidy interval now) (positive : 0 < interval.nanos)
    (settled : s.settled now key = .ok base) : base.Tidy interval now ∧ now < base.nextSweep := by
  obtain ⟨next, reached, rfl⟩ | ⟨early, ⟨rfl, -⟩ | ⟨rfl, -⟩⟩ := settled_cases settled
  · obtain ⟨swept, ahead⟩ := tidy.swept reached
    exact ⟨swept, show now.nanos < next.nanos by omega⟩
  · exact ⟨tidy, early⟩
  · refine ⟨?_, early⟩
    exact {
      sound := ⟨tidy.sound.unbroken, Table.distinct_erase _ tidy.sound.distinct _⟩
      spaced := tidy.spaced
      scheduled := tidy.scheduled
      fresh := fun p among => tidy.fresh p (List.mem_of_mem_filter among) }

variable [TokenNumber α]

/-- An answer leaves entries that were there, and at the call's key possibly one that does not expire before now. All
other keys show what they showed. -/
theorem answer_thins {c : Call} {reply : c.Reply} (touched : c.key? = some key) (distinct : s.entries.Distinct)
    (answered : s.answer now c = .ok (s', reply)) :
    ∀ p ∈ s'.entries.pairs, p ∈ s.entries.pairs ∨ p.1 = key ∧ now ≤ p.2.expires := by
  obtain ⟨e, decided, shows, distinct'⟩ := answer_ok touched distinct answered
  rintro ⟨k, e'⟩ among
  have found := (Table.mem_pairs_iff distinct' k e').mp among
  rw [shows k] at found
  by_cases here : k = key
  · rw [if_pos here] at found
    subst found
    rcases Call.onEntry_expires decided with before | ahead
    · exact .inl (here ▸ Table.mem_of_find? before)
    · exact .inr ⟨here, ahead⟩
  · rw [if_neg here] at found
    exact .inl (Table.mem_of_find? found)

/-- A store that answers an access is tidy again, and the next sweep is ahead. Answering does not move the sweep, and
what it writes expires late enough for one that is an interval ahead at most. -/
theorem Tidy.accessed {c : Call} {reply : c.Reply} (tidy : s.Tidy interval now) (positive : 0 < interval.nanos)
    (touched : c.key? = some key) (performed : s.perform now c = (s', .ok (.ok reply))) :
    s'.Tidy interval now ∧ now < s'.nextSweep := by
  obtain ⟨unbroken, base, settled, answered⟩ := answer_of_performed touched performed
  obtain ⟨settledTidy, ahead⟩ := tidy.settled positive settled
  obtain ⟨-, -, -, distinct⟩ := answer_ok touched settledTidy.sound.distinct answered
  have frame := answer_entries answered
  have scheduled : s'.nextSweep = base.nextSweep := by rw [frame]
  have spaced : s'.sweepInterval = base.sweepInterval := by rw [frame]
  rw [← scheduled] at ahead
  have fresh : ∀ p ∈ s'.entries.pairs, s'.nextSweep.nanos ≤ p.2.expires.nanos + interval.nanos := by
    intro p among
    rw [scheduled]
    rcases answer_thins touched settledTidy.sound.distinct answered p among with before | ⟨-, late⟩
    · exact settledTidy.fresh p before
    · have late' : now.nanos ≤ p.2.expires.nanos := late
      have := settledTidy.scheduled
      omega
  refine ⟨?_, ahead⟩
  exact {
    sound := ⟨unbroken, distinct⟩
    spaced := spaced.trans settledTidy.spaced
    scheduled := scheduled ▸ settledTidy.scheduled
    fresh := fresh }

/-- A question that does not break it keeps a store tidy: to count entries does nothing, a sweep leaves it tidy, and so
does an access. -/
theorem Tidy.serve (tidy : s.Tidy interval now) (positive : 0 < interval.nanos) {q : Question}
    (fine : (s.serve now q).2.isBreakdown = false) : (s.serve now q).1.Tidy interval now := by
  cases q with
  | size => exact tidy
  | purge =>
    obtain ⟨next, reached, same⟩ := swept_of_sound tidy.sound fine
    rw [same]
    exact (tidy.swept reached).1
  | call c =>
    obtain ⟨reply, answered⟩ := answered_of_sound tidy.sound fine
    cases touched : c.key? with
    | none =>
      cases c <;> cases touched
      exact tidy
    | some key => exact (tidy.accessed positive touched (Prod.ext rfl answered)).1

/-- Whatever is at a key after a question that is not about it was there before. A sweep and the settling before an
access only take entries out, and an answer writes at its own key. -/
theorem serve_apart (sound : s.Sound) {q : Question} (fine : (s.serve now q).2.isBreakdown = false)
    (apart : (Event.ask q).concerns k = false) {e : Entry α} (there : (k, e) ∈ (s.serve now q).1.entries.pairs) :
    (k, e) ∈ s.entries.pairs := by
  cases q with
  | size => exact there
  | purge =>
    obtain ⟨next, -, same⟩ := swept_of_sound sound fine
    rw [same] at there
    exact List.mem_of_mem_filter there
  | call c =>
    obtain ⟨reply, answered⟩ := answered_of_sound sound fine
    cases touched : c.key? with
    | none =>
      cases c <;> cases touched
      exact there
    | some key =>
      have performed : s.perform now c = ((s.serve now (.call c)).1, .ok (.ok reply)) := Prod.ext rfl answered
      obtain ⟨-, base, settled, answered⟩ := answer_of_performed touched performed
      obtain ⟨-, -, distinct⟩ := settled_ok sound.distinct settled
      rcases answer_thins touched distinct answered _ there with before | ⟨here, -⟩
      · exact (settled_thins sound.distinct settled).1 _ before
      · rw [← here] at touched
        simp [Event.concerns, touched] at apart

end Store

/-! Whole courses. -/

namespace Store

variable {s : Store Binary64} {now : Moment} {interval : Span} {events earlier rest : List Event} {k : String}

/-- What is left after events is what the later ones leave of what the earlier ones left. -/
theorem after_append (s : Store Binary64) (now : Moment) (earlier rest : List Event) :
    s.after now (earlier ++ rest) = (s.after now earlier).after (finish now earlier) rest := by
  induction earlier generalizing s now with
  | nil => rfl
  | cons event earlier inductionHypothesis =>
    cases event with
    | pass nanos => exact inductionHypothesis s _
    | ask q => exact inductionHypothesis _ now

/-- Where nothing breaks down, nothing does in the first part nor in the rest, for the history goes on only after events
without a breakdown. -/
theorem history_append_whole (whole : ∀ seen ∈ history serve s now (earlier ++ rest), seen.2.isBreakdown = false) :
    (∀ seen ∈ history serve s now earlier, seen.2.isBreakdown = false) ∧
      ∀ seen ∈ history serve (s.after now earlier) (finish now earlier) rest, seen.2.isBreakdown = false := by
  induction earlier generalizing s now with
  | nil => exact ⟨fun seen among => absurd among List.not_mem_nil, whole⟩
  | cons event earlier inductionHypothesis =>
    cases event with
    | pass nanos => exact inductionHypothesis whole
    | ask q =>
      obtain ⟨fine, whole'⟩ := history_whole whole
      obtain ⟨first, second⟩ := inductionHypothesis whole'
      refine ⟨?_, second⟩
      rw [history_ask fine]
      exact List.forall_mem_cons.mpr ⟨fine, first⟩

/-- Without a breakdown a tidy store stays tidy. The induction goes along the events; time and questions each keep it
so. -/
theorem Tidy.after (tidy : s.Tidy interval now) (positive : 0 < interval.nanos)
    (whole : ∀ seen ∈ history Store.serve s now events, seen.2.isBreakdown = false) :
    (s.after now events).Tidy interval (finish now events) := by
  induction events generalizing s now with
  | nil => exact tidy
  | cons event rest inductionHypothesis =>
    cases event with
    | pass nanos => exact inductionHypothesis (tidy.later (Nat.le_add_right now.nanos nanos)) whole
    | ask q =>
      obtain ⟨fine, whole'⟩ := history_whole whole
      exact inductionHypothesis (tidy.serve positive fine) whole'

/-- Where nobody asks at a key, nothing comes to be there. What is there at the end was there after each event, back to
the first. -/
theorem after_untouched (sound : s.Sound) (apart : ∀ c, .ask (.call c) ∈ events → c.key? ≠ some k)
    (whole : ∀ seen ∈ history serve s now events, seen.2.isBreakdown = false) {e : Entry Binary64}
    (there : (k, e) ∈ (s.after now events).entries.pairs) : (k, e) ∈ s.entries.pairs := by
  induction events generalizing s now with
  | nil => exact there
  | cons event rest inductionHypothesis =>
    have apart' : ∀ c, .ask (.call c) ∈ rest → c.key? ≠ some k := fun c member => apart c (List.mem_cons_of_mem _ member)
    cases event with
    | pass nanos => exact inductionHypothesis sound apart' whole there
    | ask q =>
      obtain ⟨fine, whole'⟩ := history_whole whole
      refine serve_apart sound fine ?_ (inductionHypothesis (serve_sound sound fine) apart' whole' there)
      cases q with
      | purge => rfl
      | size => rfl
      | call c => exact decide_eq_false (apart c List.mem_cons_self)

/-- Where nobody asks at a key, an entry that remains there is the one that was there, since a key is there once. -/
theorem unchanged_of_untouched (sound : s.Sound) (apart : ∀ c, .ask (.call c) ∈ events → c.key? ≠ some k)
    (whole : ∀ seen ∈ history serve s now events, seen.2.isBreakdown = false) {e e' : Entry Binary64}
    (there : (k, e) ∈ s.entries.pairs) (remains : (k, e') ∈ (s.after now events).entries.pairs) : e' = e := by
  have before := (Table.mem_pairs_iff sound.distinct k e').mp (after_untouched sound apart whole remains)
  rw [(Table.mem_pairs_iff sound.distinct k e).mp there] at before
  exact (Option.some.inj before).symm

end Store

/-- Expired entries do not accumulate. Take a store that was opened with some interval between sweeps, and whatever it was
asked while time passed, without a breakdown. After every access each entry that is still kept expires less than an interval
before it, or later; what was done for the access before it was answered has removed no live entry; and the next sweep is
ahead by no more than an interval. So if an entry has expired for an interval and nobody has asked at its key since it was
there, an access leaves nothing at that key, unless the access itself is at the key. -/
theorem expired_entries_do_not_accumulate {s : Store Binary64} {start : Moment} {interval : Span}
    (positive : 0 < interval.nanos) (opened : Store.empty start interval = .ok s) (events : List Event) (c : Call)
    (access : c ≠ .ping)
    (whole : ∀ seen ∈ history Store.serve s start (events ++ [.ask (.call c)]), seen.2.isBreakdown = false) :
    let now := finish start events
    let left := s.after start (events ++ [.ask (.call c)])
    (∀ p ∈ left.entries.pairs, now.nanos < p.2.expires.nanos + interval.nanos) ∧
    (∃ key base reply, c.key? = some key ∧ (s.after start events).settled now key = .ok base ∧
      base.answer now c = .ok (left, reply) ∧
      ∀ p ∈ (s.after start events).entries.pairs, now < p.2.expires → p ∈ base.entries.pairs) ∧
    now < left.nextSweep ∧ left.nextSweep.nanos ≤ now.nanos + interval.nanos ∧
    ∀ earlier rest k e, events = earlier ++ rest → (k, e) ∈ (s.after start earlier).entries.pairs →
      (∀ c', .ask (.call c') ∈ rest → c'.key? ≠ some k) → e.expires.nanos + interval.nanos ≤ now.nanos →
      ∀ e', (k, e') ∈ left.entries.pairs → c.key? = some k ∧ e' ≠ e := by
  intro now left
  obtain ⟨wholeBefore, wholeAccess⟩ := Store.history_append_whole whole
  obtain ⟨fine, -⟩ := history_whole wholeAccess
  have tidy : (s.after start events).Tidy interval now := (Store.empty_tidy opened).after positive wholeBefore
  obtain ⟨key, touched⟩ : ∃ key, c.key? = some key := by
    cases c with
    | ping => exact absurd rfl access
    | _ => exact ⟨_, rfl⟩
  obtain ⟨reply, replied⟩ := Store.answered_of_sound tidy.sound fine
  have leaves : left = ((s.after start events).perform now c).1 := Store.after_append s start events _
  have performed : (s.after start events).perform now c = (left, .ok (.ok reply)) := by
    rw [leaves]
    exact Prod.ext rfl replied
  obtain ⟨-, base, settled, answered⟩ := Store.answer_of_performed touched performed
  obtain ⟨tidyLeft, ahead⟩ := tidy.accessed positive touched performed
  have recent : ∀ p ∈ left.entries.pairs, now.nanos < p.2.expires.nanos + interval.nanos := fun p among =>
    Nat.lt_of_lt_of_le ahead (tidyLeft.fresh p among)
  refine ⟨recent, ⟨key, base, reply, touched, settled, answered, (Store.settled_thins tidy.sound.distinct settled).2⟩,
    ahead, tidyLeft.scheduled, ?_⟩
  intro earlier rest k e split there untouched past e' remains
  have recent' := recent (k, e') remains
  have other : e' ≠ e := by
    rintro rfl
    exact absurd recent' (Nat.not_lt.mpr past)
  refine ⟨?_, other⟩
  by_contra apart
  -- neither the events since then nor the access are about the key
  subst split
  have remains' : (k, e') ∈ (s.after start (earlier ++ (rest ++ [.ask (.call c)]))).entries.pairs := by
    rwa [← List.append_assoc]
  rw [List.append_assoc] at whole
  rw [Store.after_append] at remains'
  obtain ⟨wholeEarlier, wholeSince⟩ := Store.history_append_whole whole
  obtain ⟨sound, -⟩ := Store.after_sound (Store.empty_tidy opened).sound wholeEarlier
  refine other (Store.unchanged_of_untouched sound ?_ wholeSince there remains')
  intro c' asked
  rcases List.mem_append.mp asked with since | last
  · exact untouched c' since
  · cases List.mem_singleton.mp last
    exact apart

/-- A text that expires right after a sweep, and an access just before the next sweep is due. -/
def longKept : List Event :=
  [.pass 10000000000, .ask (.call (.get "b")), .ask (.call (.set "a" "short" (Span.ofNanosWithin 1)))]

/-- An access that is too early for a sweep, and time until the text has expired for an interval. -/
def untilGone : List Event := [.pass 9000000000, .ask (.call (.get "b")), .pass 1000000001]

/-- The expired text is still kept after an access that comes before the sweep, and gone after one that comes when it
has been expired for an interval. -/
theorem expired_entries_do_not_accumulate_longKept :
    ∃ s : Store Binary64, Store.empty ⟨0⟩ (.ofSeconds 10) = .ok s ∧
      ("a", ⟨.text "short", ⟨10000000001⟩⟩) ∈ (s.after ⟨0⟩ (longKept ++ [.pass 9000000000, .ask (.call (.get "b"))])).entries.pairs ∧
      (∀ e, ("a", e) ∉ (s.after ⟨0⟩ (longKept ++ untilGone ++ [.ask (.call (.get "b"))])).entries.pairs) ∧
      (s.after ⟨0⟩ (longKept ++ untilGone ++ [.ask (.call (.get "b"))])).nextSweep.nanos ≤ 30000000001 := by
  have opened : Store.empty ⟨0⟩ (.ofSeconds 10) =
      .ok (⟨.empty, ⟨10000000000⟩, .ofSeconds 10, false⟩ : Store Binary64) := rfl
  have ended : finish ⟨0⟩ (longKept ++ untilGone) = ⟨20000000001⟩ := rfl
  obtain ⟨-, -, -, scheduled, gone⟩ := expired_entries_do_not_accumulate (by decide) opened (longKept ++ untilGone)
    (.get "b") (by decide) (by decide +kernel)
  rw [ended] at scheduled gone
  refine ⟨_, opened, .head _, fun e remains => ?_, scheduled⟩
  have apart := (gone longKept untilGone "a" ⟨.text "short", ⟨10000000001⟩⟩ rfl (.head _) ?_ (by decide) e remains).1
  · exact absurd apart (by decide)
  · intro c' member
    simp [untilGone] at member
    subst member
    decide

end Turnstile
