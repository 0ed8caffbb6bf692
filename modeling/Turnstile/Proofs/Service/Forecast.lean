import Turnstile.Proofs.Bucket.Retry
import Turnstile.Proofs.Policies
import Turnstile.Proofs.Program.Play

/-!
What a look at a limit foretells.

Whoever asks how a limit stands is told the whole tokens that are left, and whether the next request would be
throttled. A request is decided on another way: the bucket takes the cost from a number that may have a fraction, and only
what is left is rounded down. The main statement is that both agree. A request that comes at the same moment is admitted
exactly if the whole tokens cover its cost, and it is told the same limit, the same tokens less its cost, and the same
about throttling.

They agree because nothing is rounded in between. Time does not pass, so the second refill adds nothing, and a whole cost
is taken from a double of at most 53 bits before the point without a change in its fraction. Which limits the bucket has
been asked by before does not matter, and neither does what the store is asked elsewhere.
-/

namespace Turnstile

open Binary64

namespace Bucket

variable {b left : Bucket Binary64} {l : Limit} {now : Moment} {cost : UInt32}

/-- Its tokens are a number, no greater than a capacity can be. -/
def Tallied (b : Bucket Binary64) : Prop := ∃ held, b.tokens.Is held ∧ held ≤ 2 ^ (32 : ℤ)

/-- A full bucket is tallied, as its capacity is a count of 32 bits. -/
theorem full_tallied (l : Limit) (now : Moment) : (full l now : Bucket Binary64).Tallied :=
  ⟨_, ofNat_is_exact (Limit.count_exact l.capacity), Limit.count_le l.capacity⟩

/-- A refill leaves a bucket tallied: it brings no NaN and nothing infinite, and it cuts off at the capacity. -/
theorem refill_tallied (lasts : 0 < l.period.nanos) (tallied : b.Tallied)
    (shown : now.nanos < Moment.secondsLimit * nanosPerSecond) : (b.refill l now).Tallied := by
  by_cases still : now.since b.asOf = 0
  · have same : b.refill l now = b := if_pos still
    rwa [same]
  · obtain ⟨held, is, few⟩ := tallied
    exact ⟨_, (refilled_is lasts is few shown still).1, (min_le_right _ _).trans (Limit.count_le _)⟩

/-- Spending removes a cost that is covered, without rounding, and nothing elsewhere. To take a whole number from a
double needs no more bits than that has. -/
theorem spend_is {held : ℚ} (is : b.tokens.Is held) (few : held ≤ 2 ^ (32 : ℤ)) (cost : UInt32) :
    (b.covers cost = true ↔ (cost.toNat : ℚ) ≤ held) ∧
      (b.spend cost).tokens.Is (if (cost.toNat : ℚ) ≤ held then held - cost.toNat else held) := by
  have costs : (ofNat cost.toNat).Is cost.toNat := ofNat_is_exact (Limit.count_exact cost)
  have covers : b.covers cost = true ↔ (cost.toNat : ℚ) ≤ held := le_iff costs is
  refine ⟨covers, ?_⟩
  unfold spend
  by_cases covered : (cost.toNat : ℚ) ≤ held
  · rw [if_pos covered, if_pos (covers.mpr covered)]
    exact sub_whole_is is costs covered (few.trans (by norm_num [exactLimit]))
  · rw [if_neg covered, if_neg (mt covers.mp covered)]
    exact is

/-- A take leaves a bucket tallied, for it refills and spends, and what is left is no more than what was there. -/
theorem take_tallied (lasts : 0 < l.period.nanos) (tallied : b.Tallied)
    (shown : now.nanos < Moment.secondsLimit * nanosPerSecond) (cost : UInt32) : (b.take l cost now).1.Tallied := by
  obtain ⟨held, is, few⟩ := refill_tallied lasts tallied shown
  have costs : (0 : ℚ) ≤ cost.toNat := Nat.cast_nonneg _
  refine ⟨_, (spend_is is few cost).2, ?_⟩
  split_ifs
  · linarith
  · exact few

/-- No time has passed since a take: the refill has set the bucket's moment, or the moment was as late already. -/
theorem since_take (b : Bucket Binary64) (l : Limit) (cost : UInt32) (now : Moment) :
    now.since (b.take l cost now).1.asOf = 0 := by
  have spent : (b.take l cost now).1.asOf = (b.refill l now).asOf := spend_asOf _ cost
  rw [spent]
  unfold refill
  dsimp only
  split_ifs with still
  · exact still
  · exact Nat.sub_self _

/-- What is reported to be left is the whole part of what is left, and what is granted is decided by the refilled
bucket. -/
theorem remaining_of_take {grant : Grant} (taken : b.take l cost now = (left, .ok grant)) :
    grant.granted = (b.refill l now).covers cost ∧ grant.remaining = TokenNumber.floorWithin maxLongCount left.tokens := by
  unfold take report at taken
  obtain ⟨rfl, reported⟩ := Prod.mk.inj taken
  split at reported
  · cases reported
  · cases reported
    exact ⟨rfl, rfl⟩

/-- The whole part of a tally is reported without being cut, as it is far below the greatest count. -/
theorem whole_is {tokens : Binary64} {held : ℚ} (is : tokens.Is held) (few : held ≤ 2 ^ (32 : ℤ)) :
    tokens.floorWithin maxLongCount = ⌊held⌋₊ := by
  rw [floorWithin_is is]
  apply min_eq_right
  apply Nat.floor_le_of_le
  apply few.trans
  norm_num [maxLongCount, word64Limit]

/-- A take while no time passes is granted exactly if the tokens cover the cost, which is taken from them without
rounding. The refill leaves the bucket as it is. -/
theorem take_is {held : ℚ} (still : now.since b.asOf = 0) (is : b.tokens.Is held) (few : held ≤ 2 ^ (32 : ℤ))
    {grant : Grant} (taken : b.take l cost now = (left, .ok grant)) :
    (grant.granted = true ↔ (cost.toNat : ℚ) ≤ held) ∧ left.tokens.Is (held - grant.paid cost) ∧
      grant.remaining = ⌊held - grant.paid cost⌋₊ := by
  have refilled : b.refill l now = b := if_pos still
  have spends : b.spend cost = left := by
    have first := congrArg Prod.fst taken
    simpa only [Bucket.take, refilled] using first
  obtain ⟨covers, spent⟩ := spend_is is few cost
  obtain ⟨granted, whole⟩ := remaining_of_take taken
  rw [refilled] at granted
  rw [← granted] at covers
  have remains : left.tokens.Is (held - grant.paid cost) := by
    rw [spends] at spent
    unfold Grant.paid
    by_cases covered : (cost.toNat : ℚ) ≤ held
    · rw [if_pos covered] at spent
      rwa [if_pos (covers.mpr covered)]
    · rw [if_neg covered] at spent
      rwa [if_neg (mt covers.mp covered), Nat.cast_zero, sub_zero]
  have paid : (0 : ℚ) ≤ grant.paid cost := Nat.cast_nonneg _
  exact ⟨covers, remains, whole.trans (whole_is remains (by linarith))⟩

/-- A take right after a look is granted exactly if the tokens that the look has shown cover its cost, and leaves as
many less. A whole cost is within the tokens exactly if it is within their whole part, and what is left has the same
fraction. -/
theorem take_after_look (usable : l.fault? = none) (coverable : cost ≤ l.capacity) (tallied : b.Tallied)
    (shown : now.nanos < Moment.secondsLimit * nanosPerSecond) {span : Span} (kept : l.keep = .ok span) {seen : Grant}
    (looked : b.take l 0 now = (left, .ok seen)) :
    ∃ after grant, left.take l cost now = (after, .ok grant) ∧
      (grant.granted = true ↔ cost.toNat ≤ seen.remaining) ∧
        (grant.granted = true → grant.remaining = seen.remaining - cost.toNat) := by
  have found : left.Tallied := by
    have remains := take_tallied (Limit.usable_pos usable).2 tallied shown 0
    rwa [looked] at remains
  obtain ⟨held, is, few⟩ := found
  have still : now.since left.asOf = 0 := by
    have passed := since_take b l 0 now
    rwa [looked] at passed
  have refilled : left.refill l now = left := if_pos still
  have remaining : seen.remaining = ⌊held⌋₊ := (remaining_of_take looked).2.trans (whole_is is few)
  have unsigned : (left.spend cost).tokens.Unsigned := by
    obtain ⟨-, m, e, finite, -⟩ := (spend_is is few cost).2
    rw [finite]
    trivial
  obtain ⟨wait, waits⟩ := Limit.waitFor_ok usable kept unsigned coverable
  have taken : ∃ grant, left.take l cost now = (left.spend cost, .ok grant) := by
    unfold take report
    simp only [refilled, waits]
    exact ⟨_, rfl⟩
  obtain ⟨grant, taken⟩ := taken
  obtain ⟨granted, -, whole⟩ := take_is still is few taken
  refine ⟨_, grant, taken, ?_, ?_⟩
  · rw [granted, remaining, Nat.le_floor_iff is.nonneg]
  · intro gained
    rw [whole, remaining, Grant.paid, if_pos gained, Nat.floor_sub_natCast]

end Bucket

/-- Every bucket that is live is tallied. -/
structure Store.Tallied (s : Store Binary64) (now : Moment) : Prop where
  distinct : s.entries.Distinct
  tallied : ∀ key b, (s.live? now key).bind Entry.bucket? = some b → b.Tallied

/-- A moment after which something still expires is one that the clock can show, as it comes before that expiry. -/
theorem Store.shown_of_later {now expires : Moment} {span : Span} (reached : Store.later now span = .ok expires) :
    now.nanos < Moment.secondsLimit * nanosPerSecond :=
  lt_of_le_of_lt (Nat.le_add_right _ _) (Span.fitsAfter_iff.mpr ⟨expires, reached⟩)

/-- A take is for a limit that can be used. -/
def Call.IsUsable (c : Call) : Prop := ∀ key l cost, c = .take key l cost → l.fault? = none

variable {now : Moment}

/-- What a call leaves at its key is tallied: what was there, a text, or the bucket that a take with a usable limit
leaves. -/
theorem Call.onEntry_tallied {c : Call} (usable : c.IsUsable) {before after : Option (Entry Binary64)} {reply : c.Reply}
    (tallied : ∀ b, before.bind Entry.bucket? = some b → b.Tallied)
    (decided : c.onEntry now before = .ok (after, reply)) : ∀ b, after.bind Entry.bucket? = some b → b.Tallied := by
  cases leaves_of_onEntry decided with
  | kept => exact tallied
  | nothing =>
    intro b is
    cases is
  | written =>
    intro b is
    cases is
  | taken key l cost grant bucket span expires taken kept reached =>
    have lasts := (Limit.usable_pos (usable key l cost rfl)).2
    have found : ((before.bind Entry.bucket?).getD (.full l now)).Tallied := by
      cases is : before.bind Entry.bucket? with
      | none => exact Bucket.full_tallied l now
      | some b => exact tallied b is
    have left := Bucket.take_tallied lasts found (Store.shown_of_later reached) cost
    rw [taken] at left
    intro b is
    obtain rfl : bucket = b := Option.some.inj is
    exact left

namespace Store

variable {s : Store Binary64}

/-- All that is live later was live before, so it is tallied. -/
theorem Tallied.later (tallied : s.Tallied now) {later : Moment} (ahead : now ≤ later) : s.Tallied later where
  distinct := tallied.distinct
  tallied := by
    intro key b is
    rw [live?_later s ahead] at is
    exact tallied.tallied key b (Entry.bucket_of_filter is)

/-- Whatever comes of a question, all that is live stays tallied. A call changes its own key at most, and a purge shows
what was shown. -/
theorem Tallied.serve (tallied : s.Tallied now) {q : Question} (usable : ∀ c, q = .call c → c.IsUsable) :
    (s.serve now q).1.Tallied now := by
  cases q with
  | size => exact tallied
  | purge =>
    obtain ⟨shown, distinct⟩ := purge_live s now tallied.distinct
    refine ⟨distinct, ?_⟩
    intro key b is
    rw [Store.serve, shown key] at is
    exact tallied.tallied key b is
  | call c =>
    by_cases answered : ∃ reply, (s.perform now c).2 = .ok (.ok reply)
    · obtain ⟨reply, answered⟩ := answered
      cases touched : c.key? with
      | none =>
        cases c <;> cases touched
        exact tallied
      | some key =>
        obtain ⟨e, decided, here, others, distinct⟩ :=
          perform_answered touched tallied.distinct (Prod.ext rfl answered)
        refine ⟨distinct, ?_⟩
        intro k b is
        change ((s.perform now c).1.live? now k).bind Entry.bucket? = some b at is
        by_cases same : k = key
        · rw [same, here] at is
          exact Call.onEntry_tallied (usable c rfl) (tallied.tallied key) decided b (Entry.bucket_of_filter is)
        · rw [others k same] at is
          exact tallied.tallied k b is
    · have same : (s.perform now c).1.entries = s.entries :=
        perform_unanswered rfl fun reply answer => answered ⟨reply, answer⟩
      refine ⟨same ▸ tallied.distinct, ?_⟩
      intro key b is
      have shown : (s.perform now c).1.live? now key = s.live? now key := by
        unfold live?
        rw [same]
      rw [Store.serve, shown] at is
      exact tallied.tallied key b is

/-- So it does over events in which only usable limits take, one after the other. -/
theorem Tallied.after (tallied : s.Tallied now) {events : List Event}
    (usable : ∀ c, .ask (.call c) ∈ events → c.IsUsable) : (s.after now events).Tallied (finish now events) := by
  induction events generalizing now s with
  | nil => exact tallied
  | cons event rest inductionHypothesis =>
    have usable' : ∀ c, .ask (.call c) ∈ rest → c.IsUsable := fun c member => usable c (List.mem_cons_of_mem _ member)
    cases event with
    | pass nanos =>
      have ahead : now ≤ ⟨now.nanos + nanos⟩ := Nat.le_add_right now.nanos nanos
      exact inductionHypothesis (tallied.later ahead) usable'
    | ask q =>
      apply inductionHypothesis (tallied.serve _) usable'
      rintro c rfl
      exact usable c List.mem_cons_self

/-- While no time passes, a sound store that can be settled still can, whatever it is asked without breaking down. -/
theorem asked_settles (sound : s.Sound) (settles : s.Settles now) {questions : List Question}
    (whole : ∀ seen ∈ history serve s now (questions.map .ask), seen.2.isBreakdown = false) :
    (s.after now (questions.map .ask)).Settles now := by
  induction questions generalizing s with
  | nil => exact settles
  | cons q rest inductionHypothesis =>
    obtain ⟨fine, whole'⟩ := history_whole whole
    exact inductionHypothesis (serve_sound sound fine) (serve_settles sound settles fine) whole'

end Store

/-- Questions take no time, so they end at the moment at which they begin. -/
theorem finish_asked (now : Moment) (questions : List Question) : finish now (questions.map .ask) = now := by
  induction questions with
  | nil => rfl
  | cons q rest inductionHypothesis => exact inductionHypothesis

/-- A kept bucket is kept for some time: for one period at least, and a usable period lasts. -/
theorem Limit.keep_pos {l : Limit} (usable : l.fault? = none) {span : Span} (kept : l.keep = .ok span) : 0 < span.nanos := by
  obtain ⟨-, lasts⟩ := usable_pos usable
  rw [Span.times?_nanos (keep_periods kept)]
  apply Nat.mul_pos lasts
  unfold keptPeriods maxCount word32Limit
  omega

namespace Service

/-- What a caller is told who looks at a limit at a moment. -/
def statusAt (service : Service) (s : Store Binary64) (now : Moment) (client path method : String) :
    Store Binary64 × Exit (Except Failure LimitStatus) :=
  (service.limitStatus client path method : Attempt Empty LimitStatus).run.play (Store.host now) s

/-- How a limit stands that leaves some whole tokens. -/
def standing (service : Service) (client path method : String) (remaining : Nat) : LimitStatus :=
  let policy := service.policies.resolve path method
  { bucket := .of client path method
    limit := policy.limit.capacity.toNat
    remaining
    threshold := policy.threshold
    throttled := Throttle.isScarce (remaining - policy.cost.toNat) policy.limit.capacity policy.threshold }

variable {service : Service} {client path method : String} {s s' : Store Binary64}

/-- A look asks the bucket once, for nothing, and tells what it is shown. A failure of the store is told as it is, since
a look is no request that could be let through. -/
theorem statusAt_eq (usable : (service.policies.resolve path method).limit.fault? = none) :
    service.statusAt s now client path method =
      match s.perform now (.take (BucketKey.of client path method).text (service.policies.resolve path method).limit 0) with
      | (s', .error why) => (s', .broke none why)
      | (s', .ok (.error failure)) => (s', .finished (.error failure))
      | (s', .ok (.ok grant)) => (s', .finished (.ok (service.standing client path method grant.remaining))) := by
  have asks : (service.limitStatus client path method : Attempt Empty LimitStatus).run =
      .call none (.take (BucketKey.of client path method).text (service.policies.resolve path method).limit 0) fun reply =>
        match reply with
        | .error failure => .done (.error failure)
        | .ok grant => .done (.ok (service.standing client path method grant.remaining)) := by
    unfold limitStatus Throttle.remaining Throttle.consume
    dsimp only
    rw [usable]
    apply congrArg (Program.call none _)
    funext reply
    cases reply <;> rfl
  unfold statusAt
  rw [asks]
  simp only [Program.play, Store.host]
  rcases s.perform now (.take (BucketKey.of client path method).text (service.policies.resolve path method).limit 0)
    with ⟨s', why | failure | grant⟩ <;> rfl

/-- Whoever is told how a limit stands has been shown it by a bucket, which is kept on. A take of nothing leaves the
bucket in the store, refilled, until it would expire. -/
theorem shown_of_statusAt (usable : (service.policies.resolve path method).limit.fault? = none)
    (distinct : s.entries.Distinct) {status : LimitStatus}
    (told : service.statusAt s now client path method = (s', .finished (.ok status))) :
    ∃ left seen span expires,
      (((s.live? now (BucketKey.of client path method).text).bind Entry.bucket?).getD
          (.full (service.policies.resolve path method).limit now)).take
        (service.policies.resolve path method).limit 0 now = (left, .ok seen) ∧
      status = service.standing client path method seen.remaining ∧
      (service.policies.resolve path method).limit.keep = .ok span ∧ Store.later now span = .ok expires ∧
      s'.live? now (BucketKey.of client path method).text = some ⟨.bucket left, expires⟩ ∧ s'.Sound ∧ s'.Settles now := by
  rw [statusAt_eq usable] at told
  rcases performed : s.perform now (.take (BucketKey.of client path method).text
    (service.policies.resolve path method).limit 0) with ⟨s₁, why | failure | seen⟩
  · rw [performed] at told
    cases told
  · rw [performed] at told
    cases told
  · rw [performed] at told
    cases told
    have touched : (Call.take (BucketKey.of client path method).text (service.policies.resolve path method).limit 0).key? =
        some (BucketKey.of client path method).text := rfl
    obtain ⟨e, decided, here, -, distinct'⟩ := Store.perform_answered touched distinct performed
    obtain ⟨left, span, expires, looked, kept, reached, rfl⟩ := Call.onEntry_take decided
    have lasting : now < expires := by
      change now.nanos < expires.nanos
      rw [Store.later_nanos reached]
      exact Nat.lt_add_of_pos_right (Limit.keep_pos usable kept)
    have sound' : s'.Sound := ⟨(Store.answer_of_performed touched performed).1, distinct'⟩
    refine ⟨left, seen, span, expires, looked, rfl, kept, reached, ?_, sound', Store.settles_of_answered touched performed⟩
    rw [here]
    simp [Option.filter, Entry.isLive, lasting]

/-- What a request is told at the throttle that comes at a moment. -/
def requestAt (service : Service) (s : Store Binary64) (now : Moment) (client path method : String) :
    Store Binary64 × Exit (Except Failure Admission) :=
  service.guard.throttle.ruling s now (.of client path method) (service.policies.resolve path method)

/-- A store that keeps the bucket of a look answers a request as the bucket does. It can be settled, and the bucket is
there as the look has left it. -/
theorem requestAt_of_kept (usable : (service.policies.resolve path method).fault? = none) (sound : s.Sound)
    (settles : s.Settles now) {left after : Bucket Binary64} {span : Span} {expires : Moment} {grant : Grant}
    (kept : (service.policies.resolve path method).limit.keep = .ok span) (reached : Store.later now span = .ok expires)
    (here : s.live? now (BucketKey.of client path method).text = some ⟨.bucket left, expires⟩)
    (taken : left.take (service.policies.resolve path method).limit (service.policies.resolve path method).cost now =
      (after, .ok grant)) :
    (grant.granted = true → ∃ s', service.requestAt s now client path method =
      (s', .finished (.ok (service.guard.throttle.admission (service.policies.resolve path method) grant)))) ∧
    (grant.granted = false → ∃ s' seconds, service.requestAt s now client path method =
      (s', .finished (.error (.rateLimited seconds)))) := by
  obtain ⟨fine, coverable⟩ := Policy.usable_limit usable
  have decided : Call.onEntry now (.take (BucketKey.of client path method).text
      (service.policies.resolve path method).limit (service.policies.resolve path method).cost)
      (s.live? now (BucketKey.of client path method).text) = .ok (some ⟨.bucket after, expires⟩, grant) := by
    simp only [Call.onEntry, here, Option.bind_some, Entry.bucket?, Option.getD_some, taken, kept, reached, bind,
      Except.bind, pure, Except.pure]
  obtain ⟨s', performed, -⟩ := Store.perform_settled sound settles rfl decided
  obtain ⟨admitted, refused⟩ := Throttle.ruling_of_answered (t := service.guard.throttle) fine coverable performed
  constructor
  · exact fun granted => ⟨s', admitted granted⟩
  · intro denied
    obtain ⟨seconds, -, ruled⟩ := refused denied
    exact ⟨s', seconds, ruled⟩

/-- A look at a limit foretells the next request at the same moment. It is admitted exactly if the whole tokens that
were shown cover its cost; then it is told the same limit, the tokens less the cost, and the same about throttling. -/
theorem status_foretells_admission (usable : service.policies.Usable) {start : Moment} {interval : Span}
    {opened : Store Binary64} (began : Store.empty start interval = .ok opened) {events : List Event}
    (limits : ∀ c, .ask (.call c) ∈ events → c.IsUsable) {status : LimitStatus}
    (told : service.statusAt (opened.after start events) (finish start events) client path method =
      (s, .finished (.ok status)))
    {questions : List Question} (apart : ∀ c, .call c ∈ questions → c.key? ≠ some (BucketKey.of client path method).text)
    (whole : ∀ seen ∈ history Store.serve s (finish start events) (questions.map .ask), seen.2.isBreakdown = false) :
    ((service.policies.resolve path method).cost.toNat ≤ status.remaining →
      ∃ s' admission, service.requestAt (s.after (finish start events) (questions.map .ask)) (finish start events) client
          path method = (s', .finished (.ok admission)) ∧
        admission.limit = status.limit ∧
        admission.remaining = status.remaining - (service.policies.resolve path method).cost.toNat ∧
        admission.throttled = status.throttled) ∧
    (status.remaining < (service.policies.resolve path method).cost.toNat →
      ∃ s' seconds, service.requestAt (s.after (finish start events) (questions.map .ask)) (finish start events) client
          path method = (s', .finished (.error (.rateLimited seconds)))) := by
  have policy := usable.resolve path method
  obtain ⟨fine, coverable⟩ := Policy.usable_limit policy
  obtain ⟨sound, -, nothing⟩ := Store.empty_ok began
  have tallied : (opened.after start events).Tallied (finish start events) := by
    apply Store.Tallied.after _ limits
    refine ⟨sound.distinct, ?_⟩
    intro key b is
    rw [nothing start key] at is
    cases is
  generalize finish start events = now at *
  obtain ⟨left, seen, span, expires, looked, rfl, kept, reached, here, sound', settles⟩ :=
    shown_of_statusAt fine tallied.distinct told
  -- the bucket is still there when the request comes
  have apart' : ∀ c, .ask (.call c) ∈ questions.map Event.ask → c.key? ≠ some (BucketKey.of client path method).text := by
    intro c member
    obtain ⟨q, among, same⟩ := List.mem_map.mp member
    cases same
    exact apart c among
  have stays := Store.after_apart sound' apart' whole
  rw [finish_asked, ← Store.live?_later s (Nat.le_refl now.nanos), here] at stays
  have sound'' := (Store.after_sound sound' whole).1
  have settles' := Store.asked_settles sound' settles whole
  -- and it answers as the look has shown
  have found : (((opened.after start events).live? now (BucketKey.of client path method).text).bind
      Entry.bucket?).getD (.full (service.policies.resolve path method).limit now) |>.Tallied := by
    cases is : ((opened.after start events).live? now (BucketKey.of client path method).text).bind Entry.bucket? with
    | none => exact Bucket.full_tallied _ now
    | some b => exact tallied.tallied _ b is
  obtain ⟨after, grant, taken, covered, remains⟩ := Bucket.take_after_look fine coverable found (Store.shown_of_later reached)
    kept looked
  obtain ⟨admitted, refused⟩ := requestAt_of_kept policy sound'' settles' kept reached stays taken
  constructor
  · intro enough
    have granted := covered.mpr enough
    obtain ⟨s', ruled⟩ := admitted granted
    have left' := remains granted
    refine ⟨s', _, ruled, rfl, left', ?_⟩
    simp only [Throttle.admission, standing, left']
  · intro short
    apply refused
    rw [← Bool.not_eq_true, covered]
    exact Nat.not_le.mpr short

end Service

/-- A service whose requests cost two tokens of five, of which two more come every ten seconds. With less than half of the
tokens left it throttles. -/
def meteredService : Service where
  guard := ⟨shortDelays, ⟨.ofSeconds 10⟩, .ofSeconds 5⟩
  policies := ⟨⟨⟨5, 2, .ofSeconds 10⟩, 2, .div 1 2, none⟩, .empty⟩
  trustHeaders := false
  backend := "memory"

/-- Four tokens are taken from the bucket of a client for a route, and some time passes. -/
def fourTaken (nanos : Nat) : List Event :=
  [.ask (.call (.take (BucketKey.of "c" "/p" "GET").text ⟨5, 2, .ofSeconds 10⟩ 4)), .pass nanos]

/-- What others may ask in between. -/
def others : List Question := [.call (.set "a" "other" (.ofSeconds 5)), .purge, .size]

/-- After seven seconds there are 2.4 tokens, which cover a request and leave none. After four seconds there are 1.8
tokens, which do not cover it. -/
theorem status_foretells_admission_meteredService :
    (∃ s s' status admission,
      meteredService.statusAt (untouched.after ⟨0⟩ (fourTaken 7000000000)) ⟨7000000000⟩ "c" "/p" "GET" =
          (s, .finished (.ok status)) ∧ status.remaining = 2 ∧ status.throttled = true ∧
        meteredService.requestAt (s.after ⟨7000000000⟩ (others.map .ask)) ⟨7000000000⟩ "c" "/p" "GET" =
          (s', .finished (.ok admission)) ∧ admission.remaining = 0 ∧ admission.throttled = true) ∧
    ∃ s s' status seconds,
      meteredService.statusAt (untouched.after ⟨0⟩ (fourTaken 4000000000)) ⟨4000000000⟩ "c" "/p" "GET" =
          (s, .finished (.ok status)) ∧ status.remaining = 1 ∧
        meteredService.requestAt (s.after ⟨4000000000⟩ (others.map .ask)) ⟨4000000000⟩ "c" "/p" "GET" =
          (s', .finished (.error (.rateLimited seconds))) := by
  have usable : meteredService.policies.Usable := ⟨by decide +kernel, fun _ _ found => by cases found⟩
  have began : Store.empty ⟨0⟩ (.ofSeconds 60) = .ok untouched := rfl
  have limits (nanos : Nat) : ∀ c, .ask (.call c) ∈ fourTaken nanos → c.IsUsable := by
    intro c member key l cost same
    simp only [fourTaken, List.mem_cons, List.not_mem_nil, or_false, Event.ask.injEq, Question.call.injEq,
      reduceCtorEq] at member
    subst same
    cases member
    decide
  have apart : ∀ c, .call c ∈ others → c.key? ≠ some (BucketKey.of "c" "/p" "GET").text := by
    intro c member
    simp only [others, List.mem_cons, List.not_mem_nil, or_false, Question.call.injEq, reduceCtorEq] at member
    subst member
    decide +kernel
  constructor
  · have answered : (meteredService.statusAt (untouched.after ⟨0⟩ (fourTaken 7000000000)) ⟨7000000000⟩ "c" "/p"
        "GET").2.answer? = some ⟨.of "c" "/p" "GET", 5, 2, .div 1 2, true⟩ := by decide +kernel
    have told := Exit.of_answer answered
    obtain ⟨s', admission, ruled, -, left, same⟩ := (Service.status_foretells_admission usable began
      (limits 7000000000) told apart (by decide +kernel)).1 (by decide)
    exact ⟨_, s', _, admission, told, rfl, rfl, ruled, left, same⟩
  · have answered : (meteredService.statusAt (untouched.after ⟨0⟩ (fourTaken 4000000000)) ⟨4000000000⟩ "c" "/p"
        "GET").2.answer? = some ⟨.of "c" "/p" "GET", 5, 1, .div 1 2, true⟩ := by decide +kernel
    have told := Exit.of_answer answered
    obtain ⟨s', seconds, ruled⟩ := (Service.status_foretells_admission usable began
      (limits 4000000000) told apart (by decide +kernel)).2 (by decide)
    exact ⟨_, s', _, seconds, told, rfl, ruled⟩

end Turnstile
