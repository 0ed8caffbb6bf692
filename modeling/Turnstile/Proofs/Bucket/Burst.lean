import Turnstile.Proofs.Service.Forecast

/-!
Bursts at one moment.

Requests may come faster than the clock goes on. Then a bucket gains nothing in between, and whole costs are taken from a
whole number of tokens, which doubles do without rounding. So a burst is served greedily: whoever finds its cost among the
tokens that are left gets them, whoever does not leaves them to the next. Between two takes the bucket goes through the
store, which drops it and puts it back, and may be asked for anything else meanwhile.

The main statement follows a burst that finds no bucket at its key, first at the limiter, with any costs, then at the
throttle, where every request has the cost of its policy. That takes are answered rests on room for the bucket and for the
next sweep alone. Only a cost beyond the capacity, which is never granted, may have a wait that is no span.
-/

namespace Turnstile

open Binary64

variable {l : Limit} {now : Moment}

namespace Bucket

/-- It holds that many tokens, and gains nothing at the moment. -/
structure Stands (b : Bucket Binary64) (l : Limit) (now : Moment) (tokens : Nat) : Prop where
  still : now.since b.asOf = 0
  is : b.tokens.Is tokens
  within : tokens ≤ l.capacity.toNat

variable {b left : Bucket Binary64} {tokens : Nat}

/-- A full bucket stands at its capacity, as of the present. -/
theorem full_stands (l : Limit) (now : Moment) : (full l now).Stands l now l.capacity.toNat where
  still := Nat.sub_self _
  is := ofNat_is_exact (Limit.count_exact l.capacity)
  within := Nat.le_refl _

/-- A cost is granted that is among the tokens, and taken from them; any other leaves the bucket as it is. No time has
passed, so there is nothing to refill, and whole numbers are taken from one another exactly. -/
theorem Stands.take (stands : b.Stands l now tokens) {cost : UInt32} {grant : Grant}
    (taken : b.take l cost now = (left, .ok grant)) :
    (grant.granted = true ↔ cost.toNat ≤ tokens) ∧ left.Stands l now (tokens - grant.paid cost) ∧
      grant.remaining = tokens - grant.paid cost ∧ (grant.granted = false → left = b) := by
  have refilled : b.refill l now = b := if_pos stands.still
  have few : (tokens : ℚ) ≤ 2 ^ (32 : ℤ) := (Nat.cast_le.mpr stands.within).trans (Limit.count_le l.capacity)
  obtain ⟨granted, held, whole⟩ := take_is stands.still stands.is few taken
  rw [Nat.cast_le] at granted
  have paid : grant.paid cost ≤ tokens := by
    unfold Grant.paid
    split
    · rename_i gained
      exact granted.mp gained
    · exact Nat.zero_le _
  rw [← Nat.cast_sub paid] at held whole
  have spends : left = b.spend cost := by
    have first := congrArg Prod.fst taken
    simpa only [Bucket.take, refilled] using first.symm
  have stands' : left.Stands l now (tokens - grant.paid cost) := {
    still := by rw [spends, spend_asOf, stands.still]
    is := held
    within := (Nat.sub_le _ _).trans stands.within }
  refine ⟨granted, stands', whole.trans (Nat.floor_natCast _), ?_⟩
  intro refused
  have uncovered := (remaining_of_take taken).1
  rw [refilled, refused] at uncovered
  rw [spends]
  exact if_neg (by rw [← uncovered]; decide)

end Bucket

/-- What a take for the limit finds at an entry: no bucket, which counts as a full one, or a bucket with these tokens that
is kept from this moment on. -/
inductive StandsAt (l : Limit) (now : Moment) : Option (Entry Binary64) → Nat → Prop
  | full : StandsAt l now none l.capacity.toNat
  | bucket (b : Bucket Binary64) (span : Span) (expires : Moment) (tokens : Nat) (stands : b.Stands l now tokens)
      (kept : l.keep = .ok span) (reached : Store.later now span = .ok expires) :
      StandsAt l now (some ⟨.bucket b, expires⟩) tokens

namespace StandsAt

variable {e after : Option (Entry Binary64)} {tokens : Nat}

/-- The bucket that a take finds at the entry stands at the tokens of the entry, a full one where there is none. -/
theorem found (standing : StandsAt l now e tokens) :
    ((e.bind Entry.bucket?).getD (.full l now)).Stands l now tokens := by
  cases standing with
  | full => exact Bucket.full_stands l now
  | bucket b span expires tokens stands => exact stands

/-- A take is decided whose cost the capacity covers. What the bucket holds is a count, so the wait has a span, and the
bucket can be kept. -/
theorem decides (standing : StandsAt l now e tokens) (usable : l.fault? = none) (fits : l.FitsAfter now) {cost : UInt32}
    (coverable : cost ≤ l.capacity) (key : String) :
    ∃ after grant, Call.onEntry now (.take key l cost) e = .ok (after, grant) := by
  obtain ⟨span, kept, spanFits⟩ := fits
  obtain ⟨expires, reached⟩ := Span.fitsAfter_iff.mp spanFits
  have counts : ((e.bind Entry.bucket?).getD (.full l now)).Counts := by
    obtain ⟨-, m, x, finite, -⟩ := standing.found.is
    unfold Bucket.Counts
    rw [finite]
    trivial
  obtain ⟨-, grant, granted⟩ := Bucket.take_ok counts usable kept coverable now
  simp only [Call.onEntry, granted, kept, reached, bind, Except.bind, pure, Except.pure]
  exact ⟨_, _, rfl⟩

/-- What a take tells, and what it leaves at the entry: the bucket with the cost deducted if that is among the tokens,
and kept from the present on, so it does not expire at once. -/
theorem take (standing : StandsAt l now e tokens) (usable : l.fault? = none) {key : String} {cost : UInt32} {grant : Grant}
    (decided : Call.onEntry now (.take key l cost) e = .ok (after, grant)) :
    (grant.granted = true ↔ cost.toNat ≤ tokens) ∧
      StandsAt l now (after.filter (·.isLive now)) (tokens - grant.paid cost) ∧
      grant.remaining = tokens - grant.paid cost ∧
      (cost ≤ l.capacity → grant.granted = false → after.filter (·.isLive now) = e) := by
  obtain ⟨left, span, expires, taken, kept, reached, rfl⟩ := Call.onEntry_take decided
  obtain ⟨granted, stands, remaining, same⟩ := standing.found.take taken
  have live : (⟨.bucket left, expires⟩ : Entry Binary64).isLive now = true := by
    have ahead := Store.later_nanos reached
    have lasts := Limit.keep_pos usable kept
    exact decide_eq_true (show now.nanos < expires.nanos by omega)
  rw [Option.filter_some, if_pos live]
  refine ⟨granted, .bucket left span expires _ stands kept reached, remaining, fun coverable refused => ?_⟩
  cases standing with
  | full => exact absurd (granted.mpr (UInt32.le_iff_toNat_le.mp coverable)) (by rw [refused]; decide)
  | bucket b span' expires' tokens _ kept' reached' =>
    cases kept.symm.trans kept'
    cases reached.symm.trans reached'
    rw [same refused]
    rfl

end StandsAt

namespace Store

/-- A sound store that can be settled, with this many tokens for a take at the key. -/
structure Stands (s : Store Binary64) (l : Limit) (now : Moment) (key : String) (tokens : Nat) : Prop where
  sound : s.Sound
  settles : s.Settles now
  standing : StandsAt l now (s.live? now key) tokens

variable {s s' : Store Binary64} {key : String} {tokens : Nat}

/-- A take is answered if its cost is covered by the capacity, or if it does not break the store. In the first case it
is decided at the entry, and the store can be settled. -/
theorem Stands.answers (stands : s.Stands l now key tokens) (usable : l.fault? = none) (fits : l.FitsAfter now)
    {cost : UInt32}
    (fine : cost ≤ l.capacity ∨ (s.serve now (.call (.take key l cost))).2.isBreakdown = false) :
    ∃ s' grant, s.perform now (.take key l cost) = (s', .ok (.ok grant)) := by
  rcases fine with coverable | fine
  · obtain ⟨after, grant, decided⟩ := stands.standing.decides usable fits coverable key
    obtain ⟨s', performed, -⟩ := perform_settled stands.sound stands.settles rfl decided
    exact ⟨s', grant, performed⟩
  · obtain ⟨grant, performed⟩ := answered_of_sound stands.sound fine
    exact ⟨_, grant, Prod.ext rfl performed⟩

/-- A take that is answered is granted exactly if its cost is among the tokens, since the entry at the key decides it. -/
theorem Stands.take (stands : s.Stands l now key tokens) (usable : l.fault? = none) {cost : UInt32} {grant : Grant}
    (performed : s.perform now (.take key l cost) = (s', .ok (.ok grant))) :
    (grant.granted = true ↔ cost.toNat ≤ tokens) ∧ s'.Stands l now key (tokens - grant.paid cost) ∧
      grant.remaining = tokens - grant.paid cost ∧
      (cost ≤ l.capacity → grant.granted = false → s'.live? now key = s.live? now key) := by
  have touched : (Call.take key l cost).key? = some key := rfl
  obtain ⟨after, decided, here, -, distinct⟩ := perform_answered touched stands.sound.distinct performed
  obtain ⟨granted, standing, remaining, same⟩ := stands.standing.take usable decided
  rw [← here] at standing same
  have stands' : s'.Stands l now key (tokens - grant.paid cost) := {
    sound := { unbroken := (answer_of_performed touched performed).1, distinct := distinct }
    settles := settles_of_answered touched performed
    standing := standing }
  exact ⟨granted, stands', remaining, same⟩

/-- What is asked elsewhere does not matter: it leaves the key alone, and the store sound and able to be settled. -/
theorem Stands.elsewhere (stands : s.Stands l now key tokens) {q : Question} (apart : (Event.ask q).concerns key = false)
    (fine : (s.serve now q).2.isBreakdown = false) : (s.serve now q).1.Stands l now key tokens where
  sound := serve_sound stands.sound fine
  settles := serve_settles stands.sound stands.settles fine
  standing := by
    rw [(serve_elsewhere now stands.sound.distinct apart).2.1]
    exact stands.standing

end Store

/-- The lesser of two spans is no longer than either of them. -/
theorem Span.least_le (a b : Span) : a.least b ≤ a ∧ a.least b ≤ b := by
  unfold least
  split
  · rename_i less
    exact ⟨Nat.le_of_lt less, Nat.le_refl _⟩
  · rename_i more
    exact ⟨Nat.le_refl _, Nat.le_of_not_lt more⟩

namespace Throttle

/-- What a caller of the limiter is told who asks a bucket for tokens at a moment. -/
def drawing (s : Store Binary64) (now : Moment) (key : BucketKey) (l : Limit) (cost : UInt32) :
    Store Binary64 × Exit (Except Failure Grant) :=
  (consume key l cost : Attempt Empty Grant).run.play (Store.host now) s

/-- What becomes of a store by calls at one moment: takes for a limit at one key, which were answered, and anything
elsewhere that does not break the store. The takes that were granted have cost `paid` together. -/
inductive Drawn (l : Limit) (now : Moment) (key : BucketKey) (s : Store Binary64) : Nat → Store Binary64 → Prop
  | start : Drawn l now key s 0 s
  | draw {paid : Nat} {s' s'' : Store Binary64} {cost : UInt32} {grant : Grant} (drawn : Drawn l now key s paid s')
      (answered : drawing s' now key l cost = (s'', .finished (.ok grant))) :
      Drawn l now key s (paid + grant.paid cost) s''
  | elsewhere {paid : Nat} {s' : Store Binary64} {q : Question} (drawn : Drawn l now key s paid s')
      (apart : (Event.ask q).concerns key.text = false) (fine : (s'.serve now q).2.isBreakdown = false) :
      Drawn l now key s paid (s'.serve now q).1

/-- What becomes of a store by requests under a policy at one moment, with anything elsewhere in between. -/
inductive Burst (t : Throttle) (p : Policy) (now : Moment) (key : BucketKey) (s : Store Binary64) :
    Nat → Store Binary64 → Prop
  | start : Burst t p now key s 0 s
  | request {came : Nat} {s' : Store Binary64} (burst : Burst t p now key s came s') :
      Burst t p now key s (came + 1) (t.ruling s' now key p).1
  | elsewhere {came : Nat} {s' : Store Binary64} {q : Question} (burst : Burst t p now key s came s')
      (apart : (Event.ask q).concerns key.text = false) (fine : (s'.serve now q).2.isBreakdown = false) :
      Burst t p now key s came (s'.serve now q).1

/-- What a request is told that leaves some tokens, where the bucket has reported a wait. -/
structure Tells (t : Throttle) (p : Policy) (wait : Span) (left : Nat) (a : Admission) : Prop where
  limit : a.limit = p.limit.capacity.toNat
  remaining : a.remaining = left
  throttled : a.throttled = isScarce left p.limit.capacity p.threshold
  delayed : a.delay ≠ .zero → a.throttled = true ∧ left = 0
  delay_le_most : a.delay ≤ t.maxDelay
  delay_le_wait : a.delay ≤ wait
  asked : a.degraded = false

variable {t : Throttle} {p : Policy} {key : BucketKey} {s s' s'' : Store Binary64} {cost : UInt32} {grant : Grant}

/-- What is told of an admission: the tokens that are left, whether they are scarce, and a delay only when there are
none. The delay is the lesser of the wait and the most that the throttle allows. -/
theorem admission_tells (t : Throttle) (p : Policy) (grant : Grant) :
    t.Tells p grant.wait grant.remaining (t.admission p grant) where
  limit := rfl
  remaining := rfl
  throttled := rfl
  delayed delayed := by
    by_cases held : (isScarce grant.remaining p.limit.capacity p.threshold && decide (grant.remaining = 0)) = true
    · obtain ⟨scarce, none⟩ := Bool.and_eq_true_iff.mp held
      exact ⟨scarce, of_decide_eq_true none⟩
    · exact absurd (if_neg held) delayed
  delay_le_most := by
    unfold admission
    dsimp only
    split
    · exact (Span.least_le _ _).2
    · exact Nat.zero_le _
  delay_le_wait := by
    unfold admission
    dsimp only
    split
    · exact (Span.least_le _ _).1
    · exact Nat.zero_le _
  asked := rfl

/-- Nobody is told to come again at once, because a wait is told as one second at least. -/
theorem one_le_retryAfter {wait : Span} {seconds : Nat} (told : retryAfter wait = .ok seconds) : 1 ≤ seconds := by
  rw [eq_of_retryAfter told]
  exact Nat.le_max_left _ _

/-- A usable limit is asked once, and the caller is told what the bucket answers. So to be told a grant is to have the
take answered with it. -/
theorem drawing_iff (usable : l.fault? = none) :
    drawing s now key l cost = (s', .finished (.ok grant)) ↔
      s.perform now (.take key.text l cost) = (s', .ok (.ok grant)) := by
  have asks : (consume key l cost : Attempt Empty Grant).run = .call none (.take key.text l cost) .done := by
    unfold consume
    rw [usable]
    rfl
  unfold drawing
  rw [asks]
  simp only [Program.play, Store.host]
  rcases s.perform now (.take key.text l cost) with ⟨s₁, why | failure | reply⟩ <;> simp

/-- What has been granted is missing from the capacity, and nothing else is. By induction on the calls, each take
deducts what it grants, and calls elsewhere do not matter. -/
theorem Drawn.stands {paid : Nat} (drawn : Drawn l now key s paid s') (usable : l.fault? = none)
    (stands : s.Stands l now key.text l.capacity.toNat) :
    paid ≤ l.capacity.toNat ∧ s'.Stands l now key.text (l.capacity.toNat - paid) := by
  induction drawn with
  | start => exact ⟨Nat.zero_le _, stands⟩
  | @draw paid s' s'' cost grant _ answered inductionHypothesis =>
    obtain ⟨within, before⟩ := inductionHypothesis
    obtain ⟨granted, left, -⟩ := before.take usable ((drawing_iff usable).mp answered)
    rw [Nat.sub_sub] at left
    refine ⟨?_, left⟩
    unfold Grant.paid
    split
    · rename_i gained
      have fits := granted.mp gained
      omega
    · exact within
  | elsewhere _ apart fine inductionHypothesis =>
    exact ⟨inductionHypothesis.1, inductionHypothesis.2.elsewhere apart fine⟩

/-- Requests are takes of their cost: granted as long as all costs together are within the capacity, and from then on
the cost is not left. -/
theorem Burst.drawn {came : Nat} (burst : t.Burst p now key s came s') (usable : p.fault? = none)
    (fits : p.limit.FitsAfter now) (stands : s.Stands p.limit now key.text p.limit.capacity.toNat) :
    ∃ paid, Drawn p.limit now key s paid s' ∧
      (came * p.cost.toNat ≤ p.limit.capacity.toNat ∧ paid = came * p.cost.toNat ∨
        p.limit.capacity.toNat < came * p.cost.toNat ∧ p.limit.capacity.toNat - paid < p.cost.toNat) := by
  obtain ⟨fine, coverable⟩ := Policy.usable_limit usable
  induction burst with
  | start => exact ⟨0, .start, .inl (by simp)⟩
  | @request came s' _ inductionHypothesis =>
    obtain ⟨paid, drawn, soFar⟩ := inductionHypothesis
    have before := (drawn.stands fine stands).2
    obtain ⟨s'', grant, performed⟩ := before.answers fine fits (.inl coverable)
    obtain ⟨granted, -⟩ := before.take fine performed
    obtain ⟨admitted, refused⟩ := ruling_of_answered (t := t) fine coverable performed
    have left : (t.ruling s' now key p).1 = s'' := by
      cases gained : grant.granted with
      | true => rw [admitted gained]
      | false =>
        obtain ⟨seconds, -, ruled⟩ := refused gained
        rw [ruled]
    refine ⟨_, left ▸ drawn.draw ((drawing_iff fine).mpr performed), ?_⟩
    rw [Nat.succ_mul]
    unfold Grant.paid
    split
    · rename_i gained
      have enough := granted.mp gained
      omega
    · rename_i short
      have less := mt granted.mpr short
      omega
  | elsewhere _ apart whole inductionHypothesis =>
    obtain ⟨paid, drawn, soFar⟩ := inductionHypothesis
    exact ⟨paid, drawn.elsewhere apart whole, soFar⟩

end Throttle

open Throttle in
/-- At one moment a bucket that is not there yet is drawn from greedily. At the limiter a take is granted exactly if its cost
is within the capacity less the costs granted before. At the throttle, where `came` requests have come before, the next one
is admitted exactly if its cost and theirs are within the capacity together; it is told what is left of the capacity, and is
held back only if it is throttled and nothing is left, no longer than the throttle allows and the bucket reports. Any other
is told to come again after a second or more, and leaves the bucket as it was. -/
theorem bursts_are_granted_greedily {now : Moment} {key : BucketKey} {s : Store Binary64} (sound : s.Sound)
    (settles : s.Settles now) (free : s.live? now key.text = none) :
    (∀ {t : Throttle} {p : Policy} {came : Nat} {s' : Store Binary64}, p.fault? = none → p.limit.FitsAfter now →
      t.Burst p now key s came s' →
      ((came + 1) * p.cost.toNat ≤ p.limit.capacity.toNat →
        ∃ s'' grant admission, drawing s' now key p.limit p.cost = (s'', .finished (.ok grant)) ∧
          t.ruling s' now key p = (s'', .finished (.ok admission)) ∧
            t.Tells p grant.wait (p.limit.capacity.toNat - (came + 1) * p.cost.toNat) admission) ∧
      (p.limit.capacity.toNat < (came + 1) * p.cost.toNat →
        ∃ s'' seconds, t.ruling s' now key p = (s'', .finished (.error (.rateLimited seconds))) ∧ 1 ≤ seconds ∧
          s''.live? now key.text = s'.live? now key.text)) ∧
    ∀ {l : Limit} {paid : Nat} {s' : Store Binary64}, l.fault? = none → l.FitsAfter now → Drawn l now key s paid s' →
      paid ≤ l.capacity.toNat ∧
        ∀ {cost : UInt32}, (cost ≤ l.capacity ∨ (s'.serve now (.call (.take key.text l cost))).2.isBreakdown = false) →
          ∃ s'' grant, drawing s' now key l cost = (s'', .finished (.ok grant)) ∧
            (grant.granted = true ↔ cost.toNat ≤ l.capacity.toNat - paid) ∧
            grant.remaining = l.capacity.toNat - paid - grant.paid cost := by
  have starts (l : Limit) : s.Stands l now key.text l.capacity.toNat :=
    { sound := sound, settles := settles, standing := free ▸ .full }
  constructor
  · intro t p came s' usable fits burst
    obtain ⟨fine, coverable⟩ := Policy.usable_limit usable
    obtain ⟨paid, drawn, soFar⟩ := burst.drawn usable fits (starts _)
    obtain ⟨within, stands⟩ := drawn.stands fine (starts _)
    obtain ⟨s'', grant, performed⟩ := stands.answers fine fits (.inl coverable)
    obtain ⟨granted, -, remaining, unchanged⟩ := stands.take fine performed
    obtain ⟨admitted, refused⟩ := ruling_of_answered (t := t) fine coverable performed
    rw [Nat.succ_mul]
    constructor
    · intro enough
      have gained : grant.granted = true := granted.mpr (by omega)
      have left : p.limit.capacity.toNat - (came * p.cost.toNat + p.cost.toNat) = grant.remaining := by
        rw [remaining, Grant.paid, if_pos gained]
        omega
      exact ⟨s'', grant, _, (drawing_iff fine).mpr performed, admitted gained, left ▸ admission_tells t p grant⟩
    · intro short
      have lost : grant.granted = false := by
        rw [← Bool.not_eq_true, granted]
        omega
      obtain ⟨seconds, told, ruled⟩ := refused lost
      exact ⟨s'', seconds, ruled, one_le_retryAfter told, unchanged coverable lost⟩
  · intro l paid s' usable fits drawn
    obtain ⟨within, stands⟩ := drawn.stands usable (starts l)
    refine ⟨within, fun fine => ?_⟩
    obtain ⟨s'', grant, performed⟩ := stands.answers usable fits fine
    obtain ⟨granted, -, remaining, -⟩ := stands.take usable performed
    exact ⟨s'', grant, (drawing_iff usable).mpr performed, granted, remaining⟩

/-- Requests that cost two tokens of five. -/
def twoOfFive : Policy := meteredService.policies.otherwise

open Throttle in
/-- One of five tokens is left to the second request, so it is throttled but not held back, and too few to the third. At
the limiter, three of five tokens are granted once only. -/
theorem bursts_are_granted_greedily_twoOfFive :
    (∃ s s' admission, shortDelays.Burst twoOfFive ⟨0⟩ ⟨"b"⟩ untouched 1 s ∧
      shortDelays.ruling s ⟨0⟩ ⟨"b"⟩ twoOfFive = (s', .finished (.ok admission)) ∧ admission.remaining = 1 ∧
        admission.throttled = true ∧ admission.delay = .zero) ∧
    (∃ s s' seconds, shortDelays.Burst twoOfFive ⟨0⟩ ⟨"b"⟩ untouched 2 s ∧
      shortDelays.ruling s ⟨0⟩ ⟨"b"⟩ twoOfFive = (s', .finished (.error (.rateLimited seconds))) ∧ 1 ≤ seconds ∧
        s'.live? ⟨0⟩ "b" = s.live? ⟨0⟩ "b") ∧
    ∃ s s' grant, Drawn twoOfFive.limit ⟨0⟩ ⟨"b"⟩ untouched 3 s ∧
      drawing s ⟨0⟩ ⟨"b"⟩ twoOfFive.limit 3 = (s', .finished (.ok grant)) ∧ grant.granted = false ∧ grant.remaining = 2 := by
  have usable : twoOfFive.fault? = none := by decide +kernel
  have fits : twoOfFive.limit.FitsAfter ⟨0⟩ := ⟨_, rfl, by decide⟩
  obtain ⟨requests, takes⟩ := @bursts_are_granted_greedily ⟨0⟩ ⟨"b"⟩ untouched
    ⟨rfl, Table.distinct_empty⟩ (.inl (by decide)) rfl
  have first : shortDelays.Burst twoOfFive ⟨0⟩ ⟨"b"⟩ untouched 1
      ((shortDelays.ruling untouched ⟨0⟩ ⟨"b"⟩ twoOfFive).1.serve ⟨0⟩ (.call (.set "a" "other" (.ofSeconds 5)))).1 :=
    .elsewhere (.request .start) (by decide) (by decide +kernel)
  refine ⟨?_, ?_, ?_⟩
  · obtain ⟨s', grant, admission, -, ruled, tells⟩ := (requests usable fits first).1 (by decide)
    refine ⟨_, s', admission, first, ruled, tells.remaining, tells.throttled.trans (by decide +kernel), ?_⟩
    by_contra delayed
    exact absurd (tells.delayed delayed).2 (by decide)
  · obtain ⟨s', seconds, ruled, some, unchanged⟩ := (requests usable fits (.request first)).2 (by decide)
    exact ⟨_, s', seconds, .request first, ruled, some, unchanged⟩
  · have limited : twoOfFive.limit.fault? = none := (Policy.usable_limit usable).1
    obtain ⟨s, grant, drew, granted, -⟩ := (takes limited fits .start).2 (.inl (show (3 : UInt32) ≤ 5 by decide))
    have paid : 0 + grant.paid 3 = 3 := by rw [Grant.paid, if_pos (granted.mpr (by decide))]; rfl
    have drawn : Drawn twoOfFive.limit ⟨0⟩ ⟨"b"⟩ untouched 3 s := paid ▸ .draw .start drew
    obtain ⟨s', grant', drew', granted', remaining⟩ := (takes limited fits drawn).2 (.inl (show (3 : UInt32) ≤ 5 by decide))
    have refused : grant'.granted = false := by
      rw [← Bool.not_eq_true, granted']
      decide
    refine ⟨s, s', grant', drawn, drew', refused, ?_⟩
    rw [remaining, Grant.paid, if_neg (by rw [refused]; decide)]
    rfl

end Turnstile
