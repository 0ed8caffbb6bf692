import Turnstile.Proofs.Bucket.Exact
import Turnstile.Proofs.Store.Serving

/-!
How much a limit lets through.

A store that counts exactly is watched at one key, where only takes for one limit are called. Whatever else it is
asked and however long the pauses are, what it grants at that key between two moments is at most the capacity and
what the time between them brings. A bucket that expires and comes back full is no exception: it was full when it
expired.

The proof follows what can be taken at the key. It is what the bucket there holds, or the capacity where there is
none. It grows no faster than the limit's speed, each grant takes its cost from it, and nothing else changes it.
-/

namespace Turnstile

/-- What a sight shows as granted at a key. -/
def Sight.grantedAt (key : String) : Sight → Nat
  | .replied (.take k _ cost) (.ok grant) => if k = key then grant.paid cost else 0
  | _ => 0

/-- What is granted at a key between two moments, both included. -/
def grantedBetween (key : String) (since till : Moment) (seen : List (Moment × Sight)) : Nat :=
  ((seen.filter fun e => since ≤ e.1 ∧ e.1 ≤ till).map (·.2.grantedAt key)).sum

/-- What the first sight shows as granted counts if it is between the moments, and the rest is counted on its own. -/
theorem grantedBetween_cons (key : String) (since till now : Moment) (sight : Sight) (rest : List (Moment × Sight)) :
    grantedBetween key since till ((now, sight) :: rest) =
      (if since ≤ now ∧ now ≤ till then sight.grantedAt key else 0) + grantedBetween key since till rest := by
  unfold grantedBetween
  by_cases inside : since ≤ now ∧ now ≤ till <;> simp [inside]

/-- At the key only takes for the limit are called. -/
def OnlyTakes (key : String) (l : Limit) (events : List Event) : Prop :=
  ∀ c, .ask (.call c) ∈ events → c.key? = some key → ∃ cost, c = .take key l cost

/-- What holds of all events holds of those behind the first. -/
theorem OnlyTakes.later {key : String} {l : Limit} {event : Event} {rest : List Event}
    (only : OnlyTakes key l (event :: rest)) : OnlyTakes key l rest :=
  fun c member => only c (List.mem_cons_of_mem _ member)

/-- What concerns the key is a take, for a question about no single key concerns none and every call at the key is a
take for the limit. -/
theorem OnlyTakes.take {key : String} {l : Limit} {q : Question} {rest : List Event}
    (only : OnlyTakes key l (.ask q :: rest)) (concerned : (Event.ask q).concerns key = true) :
    ∃ cost, q = .call (.take key l cost) := by
  cases q with
  | purge => cases concerned
  | size => cases concerned
  | call c =>
    obtain ⟨cost, rfl⟩ := only c List.mem_cons_self (of_decide_eq_true concerned)
    exact ⟨cost, rfl⟩

/-- A sound store that does not break down over a take is granted it by the entry at the key, and keeps what that
leaves. Nothing else in the store has a say in it. -/
theorem Store.taken_of_sound {α : Type} [TokenNumber α] {s : Store α} (sound : s.Sound) {now : Moment} {key : String}
    {l : Limit} {cost : UInt32} (fine : (s.serve now (.call (.take key l cost))).2.isBreakdown = false) :
    ∃ e grant, (s.perform now (.take key l cost)).2 = .ok (.ok grant) ∧
      Call.onEntry now (.take key l cost) (s.live? now key) = .ok (e, grant) ∧
        (s.serve now (.call (.take key l cost))).1.live? now key = e.filter (·.isLive now) := by
  obtain ⟨grant, performed⟩ := answered_of_sound sound fine
  obtain ⟨e, decided, here, -, -⟩ :=
    perform_answered (show (Call.take key l cost).key? = some key from rfl) sound.distinct (Prod.ext rfl performed)
  exact ⟨e, grant, performed, decided, here⟩

/-- What can be taken at an entry of a limit. -/
def available (l : Limit) (now : Moment) (e : Option (Entry ℚ)) : ℚ :=
  match e.bind Entry.bucket? with
  | some b => b.holds l now
  | none => l.capacity.toNat

/-- An entry as takes for a limit leave it: a bucket in order that would be full when it expires. -/
def Sustained (l : Limit) (now : Moment) (e : Option (Entry ℚ)) : Prop :=
  ∀ b expires, e = some ⟨.bucket b, expires⟩ →
    b.InOrder l now ∧ (l.capacity.toNat : ℚ) ≤ b.tokens + ((expires.nanos : ℚ) - b.asOf.nanos) * l.speed

variable {l : Limit} {now : Moment} {e : Option (Entry ℚ)}

/-- No more can be taken than the capacity: a bucket is cut off there, and a new one holds just that. -/
theorem available_le (l : Limit) (now : Moment) (e : Option (Entry ℚ)) : available l now e ≤ l.capacity.toNat := by
  unfold available
  split
  · exact min_le_left _ _
  · exact le_refl _

/-- What can be taken is not below zero, since a sustained bucket is in order. -/
theorem available_nonneg (sustained : Sustained l now e) : 0 ≤ available l now e := by
  rcases e with _ | ⟨_ | b, expires⟩
  · exact Nat.cast_nonneg _
  · exact Nat.cast_nonneg _
  · exact Bucket.holds_nonneg (sustained b expires rfl).1

/-- A sustained entry stays so as time passes. The bucket is looked at even longer ago, and when it would be full does
not depend on the present. -/
theorem Sustained.later (sustained : Sustained l now e) {later : Moment} (ahead : now ≤ later) :
    Sustained l later e := by
  intro b expires same
  obtain ⟨order, fills⟩ := sustained b expires same
  exact ⟨order.later ahead, fills⟩

/-- A sustained entry stays so if it may be dropped, for where there is no bucket there is nothing to show. -/
theorem Sustained.filter (sustained : Sustained l now e) (passes : Entry ℚ → Bool) :
    Sustained l now (e.filter passes) :=
  fun b expires same => sustained b expires (Option.filter_eq_some_iff.mp same).1

/-- An entry that expires takes nothing away: what could be taken there was the capacity, as the bucket would be full
when it expires, and a new one holds the capacity too. -/
theorem available_filter (sustained : Sustained l now e) :
    available l now (e.filter (·.isLive now)) = available l now e := by
  rcases e with _ | ⟨_ | b, expires⟩
  · rfl
  · by_cases live : now < expires <;> simp [Option.filter, Entry.isLive, live, available, Entry.bucket?]
  · by_cases live : now < expires
    · simp [Option.filter, Entry.isLive, live]
    · obtain ⟨-, fills⟩ := sustained b expires rfl
      have ended : (expires.nanos : ℚ) ≤ now.nanos := by exact_mod_cast Nat.le_of_not_lt live
      have since : ((expires.nanos : ℚ) - b.asOf.nanos) * l.speed ≤ ((now.nanos : ℚ) - b.asOf.nanos) * l.speed :=
        mul_le_mul_of_nonneg_right (by linarith) l.speed_nonneg
      have gone : Option.filter (·.isLive now) (some (⟨.bucket b, expires⟩ : Entry ℚ)) = none := by
        simp [Option.filter, Entry.isLive, live]
      rw [gone]
      exact (min_eq_left (fills.trans (by linarith))).symm

/-- What can be taken grows no faster than the limit's speed. A bucket gains at that speed until it is full, and where
there is none the capacity can be taken all along. -/
theorem available_later {later : Moment} (ahead : now ≤ later) :
    available l later e ≤ available l now e + ((later.nanos : ℚ) - now.nanos) * l.speed := by
  have ahead' : (now.nanos : ℚ) ≤ later.nanos := by exact_mod_cast ahead
  have gained : 0 ≤ ((later.nanos : ℚ) - now.nanos) * l.speed := mul_nonneg (by linarith) l.speed_nonneg
  unfold available
  split
  · rename_i b _
    unfold Bucket.holds
    rw [min_add]
    refine le_min ((min_le_left _ _).trans (by linarith)) ((min_le_right _ _).trans (le_of_eq ?_))
    ring
  · linarith

/-- The bucket that a take asks, the one at the key or a new one, is in order and holds what can be taken. -/
theorem asked_holds (sustained : Sustained l now e) :
    ((e.bind Entry.bucket?).getD (.full l now)).InOrder l now ∧
      ((e.bind Entry.bucket?).getD (.full l now)).holds l now = available l now e := by
  rcases e with _ | ⟨_ | b, expires⟩
  · exact ⟨Bucket.full_inOrder l now, Bucket.full_holds l now⟩
  · exact ⟨Bucket.full_inOrder l now, Bucket.full_holds l now⟩
  · exact ⟨(sustained b expires rfl).1, rfl⟩

/-- A take for the limit removes what it grants from what can be taken. The bucket that it leaves is kept until it would
be full, so the entry stays sustained. -/
theorem available_take (usable : l.fault? = none) (sustained : Sustained l now e) {key : String} {cost : UInt32}
    {after : Option (Entry ℚ)} {grant : Grant}
    (decided : Call.onEntry now (.take key l cost) e = .ok (after, grant)) :
    Sustained l now after ∧ available l now after + grant.paid cost = available l now e := by
  obtain ⟨bucket, span, expires, taken, kept, reached, rfl⟩ := Call.onEntry_take decided
  have asked := asked_holds sustained
  obtain ⟨order, asOf, paid⟩ := Bucket.take_exact usable asked.1 taken
  have same : available l now (some ⟨.bucket bucket, expires⟩) = bucket.tokens := by
    change bucket.holds l now = _
    unfold Bucket.holds
    rw [asOf, sub_self, zero_mul, add_zero, min_eq_right order.within]
  refine ⟨?_, by rw [same, paid, asked.2]⟩
  intro b expires' written
  cases written
  have fills := Limit.keep_fills usable kept
  have length : (expires.nanos : ℚ) - bucket.asOf.nanos = span.nanos := by
    rw [asOf, Store.later_nanos reached]
    push_cast
    ring
  rw [length]
  exact ⟨order, by linarith [order.nonneg]⟩

/-! What a step of a store does at a key. -/

namespace Store

/-- A question that is no call at the key leaves what is there, also where it breaks the store, and grants nothing
there. -/
theorem serve_elsewhere {α : Type} [TokenNumber α] {s : Store α} {key : String} (now : Moment)
    (distinct : s.entries.Distinct) {q : Question} (elsewhere : (Event.ask q).concerns key = false) :
    (s.serve now q).1.entries.Distinct ∧ (s.serve now q).1.live? now key = s.live? now key ∧
      (s.serve now q).2.grantedAt key = 0 := by
  cases q with
  | size => exact ⟨distinct, rfl, rfl⟩
  | purge =>
    obtain ⟨shown, distinct'⟩ := purge_live s now distinct
    refine ⟨distinct', shown key, ?_⟩
    simp only [serve]
    rcases (s.purge now).2 with why | reply <;> rfl
  | call c =>
    have apart : c.key? ≠ some key := by simpa [Event.concerns] using elsewhere
    have nothing : ∀ outcome : Except Breakdown (Except Failure c.Reply),
        (Sight.ofOutcome (.replied c) outcome).grantedAt key = 0 := by
      rintro (why | why | reply)
      · rfl
      · cases c <;> rfl
      · cases c with
        | take k _ _ =>
          have other : k ≠ key := fun same => apart (by rw [same]; rfl)
          simp [Sight.ofOutcome, Sight.grantedAt, other]
        | _ => rfl
    obtain ⟨distinct', shown⟩ := perform_elsewhere now distinct apart
    exact ⟨distinct', shown, nothing _⟩

variable {s : Store ℚ} {key : String} {now : Moment}

/-- A take for the limit at the key removes what it grants from what can be taken there, also where it is refused or
breaks down: then nothing is granted, and the entries stay as they were. -/
theorem serve_take (usable : l.fault? = none) (distinct : s.entries.Distinct)
    (sustained : Sustained l now (s.live? now key)) (cost : UInt32) :
    (s.serve now (.call (.take key l cost))).1.entries.Distinct ∧
      Sustained l now ((s.serve now (.call (.take key l cost))).1.live? now key) ∧
      available l now ((s.serve now (.call (.take key l cost))).1.live? now key) +
        (s.serve now (.call (.take key l cost))).2.grantedAt key = available l now (s.live? now key) := by
  simp only [serve]
  by_cases answered : ∃ grant, (s.perform now (.take key l cost)).2 = .ok (.ok grant)
  · obtain ⟨grant, answered⟩ := answered
    obtain ⟨e, decided, here, -, distinct'⟩ :=
      perform_answered (show (Call.take key l cost).key? = some key from rfl) distinct (Prod.ext rfl answered)
    obtain ⟨sustained', paid⟩ := available_take usable sustained decided
    have seen : (Sight.ofOutcome (.replied (.take key l cost)) (.ok (.ok grant))).grantedAt key = grant.paid cost := by
      simp [Sight.ofOutcome, Sight.grantedAt]
    rw [here, answered, seen, available_filter sustained']
    exact ⟨distinct', sustained'.filter _, paid⟩
  · have same : (s.perform now (.take key l cost)).1.entries = s.entries :=
      perform_unanswered rfl fun grant answer => answered ⟨grant, answer⟩
    have here : (s.perform now (.take key l cost)).1.live? now key = s.live? now key := by
      unfold live?
      rw [same]
    have seen :
        (Sight.ofOutcome (.replied (.take key l cost)) (s.perform now (.take key l cost)).2).grantedAt key = 0 := by
      rcases outcome : (s.perform now (.take key l cost)).2 with why | why | grant
      · rfl
      · rfl
      · exact absurd ⟨grant, outcome⟩ answered
    rw [here, seen, same, Nat.cast_zero, add_zero]
    exact ⟨distinct, sustained, rfl⟩

end Store

/-- What can still be granted between two moments when some tokens can be taken now. -/
def allowance (l : Limit) (since till now : Moment) (tokens : ℚ) : ℚ :=
  if till < now then 0
  else if since ≤ now then tokens + ((till.nanos : ℚ) - now.nanos) * l.speed
  else l.capacity.toNat + ((till.nanos : ℚ) - since.nanos) * l.speed

section Allowance

variable {since till : Moment}

/-- The allowance is not below zero, whether the moments are past, present or still to come. -/
theorem allowance_nonneg (ordered : since ≤ till) {tokens : ℚ} (held : 0 ≤ tokens) :
    0 ≤ allowance l since till now tokens := by
  have ordered' : (since.nanos : ℚ) ≤ till.nanos := by exact_mod_cast ordered
  have burst : (0 : ℚ) ≤ l.capacity.toNat := Nat.cast_nonneg _
  unfold allowance
  split
  · exact le_refl _
  · rename_i inside
    have inside' : (now.nanos : ℚ) ≤ till.nanos := by exact_mod_cast Nat.le_of_not_lt inside
    split
    · have gained := mul_nonneg (sub_nonneg.mpr inside') l.speed_nonneg
      linarith
    · have gained := mul_nonneg (sub_nonneg.mpr ordered') l.speed_nonneg
      linarith

/-- Time uses up as much allowance as it brings tokens. Before the first moment the allowance is constant and bounds
what can be taken; between the moments both change at the limit's speed; after the last one nothing is allowed any more. -/
theorem allowance_later (ordered : since ≤ till) {later : Moment} (ahead : now ≤ later)
    (sustained : Sustained l now e) :
    allowance l since till later (available l later e) ≤ allowance l since till now (available l now e) := by
  by_cases ended : till < later
  · have left : 0 ≤ allowance l since till now (available l now e) :=
      allowance_nonneg ordered (available_nonneg sustained)
    simpa only [allowance, if_pos ended] using left
  · have soon : ¬ till < now := fun past => ended (Nat.lt_of_lt_of_le past ahead)
    simp only [allowance, if_neg ended, if_neg soon]
    by_cases opened : since ≤ now
    · have opens : since ≤ later := Nat.le_trans opened ahead
      have grown := available_later (l := l) (e := e) ahead
      rw [if_pos opened, if_pos opens]
      linarith
    · rw [if_neg opened]
      by_cases opens : since ≤ later
      · have opens' : (since.nanos : ℚ) ≤ later.nanos := by exact_mod_cast opens
        have burst := available_le l later e
        have shorter : ((till.nanos : ℚ) - later.nanos) * l.speed ≤ ((till.nanos : ℚ) - since.nanos) * l.speed :=
          mul_le_mul_of_nonneg_right (by linarith) l.speed_nonneg
        rw [if_pos opens]
        linarith
      · rw [if_neg opens]

/-- A grant between the two moments uses up as much allowance as it takes, and a grant outside of them does not count. -/
theorem allowance_paid (l : Limit) (now since till : Moment) {tokens left : ℚ} {paid : Nat}
    (spent : left + paid = tokens) :
    ((if since ≤ now ∧ now ≤ till then paid else 0 : Nat) : ℚ) + allowance l since till now left ≤
      allowance l since till now tokens := by
  have nothing : (0 : ℚ) ≤ paid := Nat.cast_nonneg _
  unfold allowance
  by_cases ended : till < now
  · have outside : ¬ (since ≤ now ∧ now ≤ till) := fun both => Nat.not_le_of_lt ended both.2
    simp [ended, outside]
  · have inTime : now ≤ till := Nat.le_of_not_lt ended
    by_cases opened : since ≤ now
    · simp only [ended, opened, inTime, and_self, if_true, if_false]
      linarith
    · simp [ended, opened]

end Allowance

/-- What is granted at the key is at most the allowance. By induction on the events, time and grants use it up as they
bring and take tokens, and no other question changes what can be taken. -/
theorem granted_le_allowance (usable : l.fault? = none) {key : String} {since till : Moment} (ordered : since ≤ till)
    {s : Store ℚ} (distinct : s.entries.Distinct) (sustained : Sustained l now (s.live? now key))
    {events : List Event} (only : OnlyTakes key l events) :
    (grantedBetween key since till (history Store.serve s now events) : ℚ) ≤
      allowance l since till now (available l now (s.live? now key)) := by
  induction events generalizing now s with
  | nil => simpa [history, grantedBetween] using allowance_nonneg ordered (available_nonneg sustained)
  | cons event rest inductionHypothesis =>
    cases event with
    | pass nanos =>
      have ahead : now ≤ ⟨now.nanos + nanos⟩ := Nat.le_add_right now.nanos nanos
      have expired := Store.live?_later s ahead key
      have sustained' := sustained.later ahead
      have shown : Sustained l ⟨now.nanos + nanos⟩ (s.live? ⟨now.nanos + nanos⟩ key) := by
        rw [expired]
        exact sustained'.filter _
      have remaining := inductionHypothesis distinct shown only.later
      rw [expired, available_filter sustained'] at remaining
      exact remaining.trans (allowance_later ordered ahead sustained)
    | ask q =>
      obtain ⟨distinct', sustained', spent⟩ : (s.serve now q).1.entries.Distinct ∧
          Sustained l now ((s.serve now q).1.live? now key) ∧
          available l now ((s.serve now q).1.live? now key) + (s.serve now q).2.grantedAt key =
            available l now (s.live? now key) := by
        cases concerned : (Event.ask q).concerns key with
        | false =>
          obtain ⟨distinct', same, nothing⟩ := Store.serve_elsewhere now distinct concerned
          rw [same, nothing, Nat.cast_zero, add_zero]
          exact ⟨distinct', sustained, rfl⟩
        | true =>
          obtain ⟨cost, rfl⟩ := only.take concerned
          exact Store.serve_take usable distinct sustained cost
      have held := available_nonneg sustained'
      have paid := allowance_paid l now since till spent
      have remaining : (grantedBetween key since till (if (s.serve now q).2.isBreakdown then []
          else history Store.serve (s.serve now q).1 now rest) : ℚ) ≤
          allowance l since till now (available l now ((s.serve now q).1.live? now key)) := by
        split
        · simpa [grantedBetween] using allowance_nonneg ordered held
        · exact inductionHypothesis distinct' sustained' only.later
      rw [history, grantedBetween_cons, Nat.cast_add]
      exact (add_le_add_right remaining _).trans paid

/-- Between any two moments, a limit lets through at most its capacity and what its refills bring in between. An empty
store sustains the limit, and its allowance for the two moments is no more than that. -/
theorem throughput_is_bounded (usable : l.fault? = none) {s : Store ℚ} {start : Moment} {interval : Span}
    (opened : Store.empty start interval = .ok s) {key : String} {events : List Event}
    (only : OnlyTakes key l events) {since till : Moment} (ordered : since ≤ till) :
    (grantedBetween key since till (history Store.serve s start events) : ℚ) ≤
      l.capacity.toNat + ((till.nanos : ℚ) - since.nanos) / l.period.nanos * l.refill.toNat := by
  obtain ⟨sound, -, nothing⟩ := Store.empty_ok opened
  have ordered' : (since.nanos : ℚ) ≤ till.nanos := by exact_mod_cast ordered
  have untouched : Sustained l start (s.live? start key) := by
    rw [nothing start key]
    intro b expires same
    cases same
  have granted := granted_le_allowance usable ordered sound.distinct untouched only
  have burst := available_le l start (s.live? start key)
  have brought : ((till.nanos : ℚ) - since.nanos) / l.period.nanos * l.refill.toNat =
      ((till.nanos : ℚ) - since.nanos) * l.speed := by
    unfold Limit.speed
    ring
  rw [brought]
  refine granted.trans ?_
  unfold allowance
  split
  · have gained := mul_nonneg (sub_nonneg.mpr ordered') l.speed_nonneg
    have capacity : (0 : ℚ) ≤ l.capacity.toNat := Nat.cast_nonneg _
    linarith
  · split
    · rename_i opens
      have opens' : (since.nanos : ℚ) ≤ start.nanos := by exact_mod_cast opens
      have shorter : ((till.nanos : ℚ) - start.nanos) * l.speed ≤ ((till.nanos : ℚ) - since.nanos) * l.speed :=
        mul_le_mul_of_nonneg_right (by linarith) l.speed_nonneg
      linarith
    · exact le_refl _

/-- Two tokens at most, and one more every ten seconds. -/
def slowLimit : Limit := ⟨2, 1, .ofSeconds 10⟩

/-- All tokens are taken, one more is refused, the bucket expires and all tokens of the next one are taken. -/
def takenTwice : List Event :=
  [.ask (.call (.take "b" slowLimit 2)), .pass 5000000000, .ask (.call (.take "b" slowLimit 1)),
    .ask (.call (.set "a" "other" (.ofSeconds 1))), .pass 30000000000, .ask .size,
    .ask (.call (.take "b" slowLimit 2)), .ask .purge, .ask (.call (.take "b" slowLimit 1))]

/-- Four tokens are granted in thirty-five seconds, where five and a half are allowed. Two are taken at the start, one
is refused, and two more are taken from the bucket that replaces the expired one. -/
theorem throughput_is_bounded_takenTwice :
    ∃ s : Store ℚ, Store.empty ⟨0⟩ (.ofSeconds 60) = .ok s ∧
      grantedBetween "b" ⟨0⟩ ⟨35000000000⟩ (history Store.serve s ⟨0⟩ takenTwice) = 4 ∧
      (grantedBetween "b" ⟨0⟩ ⟨35000000000⟩ (history Store.serve s ⟨0⟩ takenTwice) : ℚ) ≤
        slowLimit.capacity.toNat +
          (((⟨35000000000⟩ : Moment).nanos : ℚ) - (⟨0⟩ : Moment).nanos) / slowLimit.period.nanos *
            slowLimit.refill.toNat := by
  have opened : Store.empty ⟨0⟩ (.ofSeconds 60) =
      .ok (⟨.empty, ⟨60000000000⟩, .ofSeconds 60, false⟩ : Store ℚ) := rfl
  have usable : slowLimit.fault? = none := by decide
  have only : OnlyTakes "b" slowLimit takenTwice := by
    intro c member touched
    simp only [takenTwice, List.mem_cons, List.not_mem_nil, or_false, Event.ask.injEq, Question.call.injEq,
      reduceCtorEq, false_or] at member
    rcases member with rfl | rfl | rfl | rfl | rfl
    · exact ⟨2, rfl⟩
    · exact ⟨1, rfl⟩
    · simp [Call.key?] at touched
    · exact ⟨2, rfl⟩
    · exact ⟨1, rfl⟩
  exact ⟨_, opened, by decide +kernel, throughput_is_bounded usable opened only (by decide)⟩

end Turnstile
