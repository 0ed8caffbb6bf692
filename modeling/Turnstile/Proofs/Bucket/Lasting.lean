import Turnstile.Proofs.Bucket.Throughput

/-!
Buckets that are kept forever.

A store gives a bucket up when nobody has asked it for long enough, and makes a full one for the next take. Beside it
stands one bucket that is made full at the first take and is never given up. The main statement is that the takes of
one limit at a key are answered as this one bucket answers them, whatever else the store is asked and however long the
pauses are: the whole answer is the same, with what is left and how long to wait.

The proof keeps the store's entry and the lone bucket together. While the entry lives both are one bucket. Once it has
expired the lone bucket is full, and a refill makes it the same as a new one.
-/

namespace Turnstile

/-- The takes at a key, and when they are asked for. -/
def takesAt (key : String) (now : Moment) : List Event → List (Moment × UInt32)
  | [] => []
  | .pass nanos :: rest => takesAt key ⟨now.nanos + nanos⟩ rest
  | .ask (.call (.take k _ cost)) :: rest =>
    if k = key then (now, cost) :: takesAt key now rest else takesAt key now rest
  | .ask _ :: rest => takesAt key now rest

/-- What a take at a key was answered. -/
def Sight.takenAt? (key : String) : Sight → Option (Except Failure Grant)
  | .replied (.take k _ _) reply => if k = key then some reply else none
  | _ => none

/-- What one bucket answers to takes, first to last. It is made full at its first take and kept forever; `kept` is what
earlier takes left of it. -/
def Limit.loneAnswers {α : Type} [TokenNumber α] (l : Limit) :
    Option (Bucket α) → List (Moment × UInt32) → List (Except Breakdown Grant)
  | _, [] => []
  | kept, (now, cost) :: rest =>
    ((kept.getD (.full l now)).take l cost now).2 ::
      l.loneAnswers (some ((kept.getD (.full l now)).take l cost now).1) rest

/-- A question that is no take at the key does not occur among the takes there, and it takes no time either. -/
theorem takesAt_elsewhere {key : String} {q : Question} (elsewhere : (Event.ask q).concerns key = false)
    (now : Moment) (rest : List Event) : takesAt key now (.ask q :: rest) = takesAt key now rest := by
  cases q with
  | purge => rfl
  | size => rfl
  | call c =>
    cases c with
    | take k l cost =>
      have other : k ≠ key := by simpa [Event.concerns, Call.key?] using elsewhere
      simp [takesAt, other]
    | _ => rfl

/-- A question that is no take at the key shows none. Its sight is a count, a purge, or the reply to another call. -/
theorem Store.serve_takenAt {s : Store ℚ} {key : String} {now : Moment} {q : Question}
    (elsewhere : (Event.ask q).concerns key = false) : (s.serve now q).2.takenAt? key = none := by
  cases q with
  | size => rfl
  | purge =>
    simp only [serve]
    cases (s.purge now).2 <;> rfl
  | call c =>
    simp only [serve]
    rcases (s.perform now c).2 with why | reply
    · rfl
    · cases c with
      | take k l cost =>
        have other : k ≠ key := by simpa [Event.concerns, Call.key?] using elsewhere
        simp [Sight.ofOutcome, Sight.takenAt?, other]
      | _ => rfl

variable {l : Limit} {now : Moment} {key : String}

namespace Bucket

variable {b : Bucket ℚ}

/-- A bucket that is full stays full, for time only adds to it and the capacity cuts off what is added. -/
theorem holds_later (full : b.holds l now = l.capacity.toNat) {later : Moment} (ahead : now ≤ later) :
    b.holds l later = l.capacity.toNat := by
  have ahead' : (now.nanos : ℚ) ≤ later.nanos := by exact_mod_cast ahead
  have filled : (l.capacity.toNat : ℚ) ≤ b.tokens + ((now.nanos : ℚ) - b.asOf.nanos) * l.speed := by
    rw [← full]
    exact min_le_right _ _
  have gained : ((now.nanos : ℚ) - b.asOf.nanos) * l.speed ≤ ((later.nanos : ℚ) - b.asOf.nanos) * l.speed := by
    apply mul_le_mul_of_nonneg_right _ l.speed_nonneg
    linarith
  unfold holds
  apply min_eq_left
  linarith

/-- A bucket that holds its capacity is as good as a new one: both hold as much, and what they answer depends on nothing
else. -/
theorem take_of_full (usable : l.fault? = none) (order : b.InOrder l now)
    (full : b.holds l now = l.capacity.toNat) (cost : UInt32) :
    b.take l cost now = (Bucket.full l now).take l cost now := by
  apply take_of_holds usable order (full_inOrder l now)
  rw [full, full_holds]

end Bucket

/-- The entry of a limit stands for the bucket that is kept forever: it holds that bucket, or there is none and that
bucket is full. -/
structure StandsFor (l : Limit) (now : Moment) (kept : Option (Bucket ℚ)) (e : Option (Entry ℚ)) : Prop where
  sustained : Sustained l now e
  same : ∀ entry, e = some entry → ∃ b, entry.content = .bucket b ∧ kept = some b
  full : e = none → ∀ b, kept = some b → b.InOrder l now ∧ b.holds l now = l.capacity.toNat

namespace StandsFor

variable {kept : Option (Bucket ℚ)} {e : Option (Entry ℚ)}

/-- Before the first take there is neither, so there is nothing to compare. -/
theorem start (l : Limit) (now : Moment) : StandsFor l now none none where
  sustained := by
    intro b expires same
    cases same
  same := by
    intro entry same
    cases same
  full := by
    intro _ b same
    cases same

/-- When an entry expires the bucket it stands for is full: it was kept until an empty one would have filled up. Until
then both are one bucket. -/
theorem later (stands : StandsFor l now kept e) {later : Moment} (ahead : now ≤ later) :
    StandsFor l later kept (e.filter (·.isLive later)) where
  sustained := (stands.sustained.later ahead).filter _
  same := by
    intro entry live
    exact stands.same entry (Option.filter_eq_some_iff.mp live).1
  full := by
    intro gone b is
    cases e with
    | none =>
      obtain ⟨order, full⟩ := stands.full rfl b is
      constructor
      · exact order.later ahead
      · exact Bucket.holds_later full ahead
    | some entry =>
      obtain ⟨b', content, is'⟩ := stands.same entry rfl
      obtain rfl : b = b' := Option.some.inj (is.symm.trans is')
      have sustained := stands.sustained.later ahead
      have there : (some entry : Option (Entry ℚ)) = some ⟨.bucket b, entry.expires⟩ := by
        rw [← content]
      constructor
      · exact (sustained b entry.expires there).1
      · have expired := available_filter sustained
        rw [gone, there] at expired
        exact expired.symm

/-- A take is answered as by the bucket that is kept forever, and leaves an entry that stands for it. Where the entry is
gone the kept bucket is full, so it answers as the new one does. -/
theorem take (usable : l.fault? = none) (stands : StandsFor l now kept e) {cost : UInt32}
    {after : Option (Entry ℚ)} {grant : Grant}
    (decided : Call.onEntry now (.take key l cost) e = .ok (after, grant)) :
    ((kept.getD (.full l now)).take l cost now).2 = .ok grant ∧
      StandsFor l now (some ((kept.getD (.full l now)).take l cost now).1) after := by
  have sustained := (available_take usable stands.sustained decided).1
  obtain ⟨bucket, span, expires, taken, -, -, rfl⟩ := Call.onEntry_take decided
  have alike : (kept.getD (.full l now)).take l cost now = (bucket, .ok grant) := by
    rw [← taken]
    cases e with
    | some entry =>
      obtain ⟨b, content, rfl⟩ := stands.same entry rfl
      simp [Entry.bucket?, content]
    | none =>
      cases kept with
      | none => rfl
      | some b =>
        obtain ⟨order, full⟩ := stands.full rfl b rfl
        exact Bucket.take_of_full usable order full cost
  rw [alike]
  refine ⟨rfl, ?_⟩
  constructor
  case sustained => exact sustained
  case same =>
    intro entry same
    cases same
    exact ⟨bucket, rfl, rfl⟩
  case full =>
    intro none
    cases none

end StandsFor

/-- As long as nothing breaks down, what the store answers at the key is what the lone bucket answers. By induction on
the events, the entry stands for that bucket before and after each of them. -/
theorem taken_of_standsFor (usable : l.fault? = none) {s : Store ℚ} (sound : s.Sound) {kept : Option (Bucket ℚ)}
    (stands : StandsFor l now kept (s.live? now key)) {events : List Event} (only : OnlyTakes key l events)
    (whole : ∀ seen ∈ history Store.serve s now events, seen.2.isBreakdown = false) :
    ∃ grants : List Grant,
      (history Store.serve s now events).filterMap (·.2.takenAt? key) = grants.map .ok ∧
        l.loneAnswers kept (takesAt key now events) = grants.map .ok := by
  induction events generalizing now s kept with
  | nil => exact ⟨[], rfl, rfl⟩
  | cons event rest inductionHypothesis =>
    cases event with
    | pass nanos =>
      have ahead : now ≤ ⟨now.nanos + nanos⟩ := Nat.le_add_right now.nanos nanos
      have shown := stands.later ahead
      rw [← Store.live?_later s ahead key] at shown
      exact inductionHypothesis sound shown only.later whole
    | ask q =>
      obtain ⟨fine, whole'⟩ := history_whole whole
      have sound' := Store.serve_sound sound fine
      rw [history_ask fine, List.filterMap_cons]
      cases concerned : (Event.ask q).concerns key with
      | false =>
        have here := (Store.serve_elsewhere now sound.distinct concerned).2.1
        have stands' : StandsFor l now kept ((s.serve now q).1.live? now key) := by rwa [here]
        obtain ⟨grants, answered, alone⟩ := inductionHypothesis sound' stands' only.later whole'
        refine ⟨grants, ?_, ?_⟩
        · rw [Store.serve_takenAt concerned]
          exact answered
        · rw [takesAt_elsewhere concerned]
          exact alone
      | true =>
        obtain ⟨cost, rfl⟩ := only.take concerned
        obtain ⟨e, grant, performed, decided, here⟩ := Store.taken_of_sound sound fine
        obtain ⟨same, stands'⟩ := stands.take usable decided
        have shown := stands'.later (Nat.le_refl _)
        rw [← here] at shown
        obtain ⟨grants, answered, alone⟩ := inductionHypothesis sound' shown only.later whole'
        refine ⟨grant :: grants, ?_, ?_⟩
        · have seen : (s.serve now (.call (.take key l cost))).2.takenAt? key = some (.ok grant) := by
            simp [Store.serve, performed, Sight.ofOutcome, Sight.takenAt?]
          rw [seen]
          simp [answered]
        · simp [takesAt, Limit.loneAnswers, same, alone]

/-- That a bucket expires can not be seen: as long as nothing breaks down, the takes of one usable limit at a key are
answered as by one bucket that is made full at the first of them and kept forever. -/
theorem bucket_expiry_is_unseen (usable : l.fault? = none) {s : Store ℚ} (sound : s.Sound) {start : Moment}
    (free : s.live? start key = none) {events : List Event} (only : OnlyTakes key l events)
    (whole : ∀ seen ∈ history Store.serve s start events, seen.2.isBreakdown = false) :
    ∃ grants : List Grant,
      (history Store.serve s start events).filterMap (·.2.takenAt? key) = grants.map .ok ∧
        l.loneAnswers (none : Option (Bucket ℚ)) (takesAt key start events) = grants.map .ok := by
  have stands : StandsFor l start none (s.live? start key) := by
    rw [free]
    exact .start l start
  exact taken_of_standsFor usable sound stands only whole

/-- Five tokens at most, and two more every ten seconds. -/
def unevenLimit : Limit := ⟨5, 2, .ofSeconds 10⟩

/-- A store with an entry at another key. -/
def storeInUse : Store ℚ :=
  ⟨⟨[("a", ⟨.text "other", ⟨20000000000⟩⟩)]⟩, ⟨60000000000⟩, .ofSeconds 60, false⟩

/-- A part of a period passes between takes, then the bucket expires at the moment it is asked again, and then it is
left alone until a sweep has removed it. -/
def expiredTwice : List Event :=
  [.ask (.call (.take "b" unevenLimit 4)), .pass 12000000000, .ask (.call (.take "b" unevenLimit 3)),
    .ask (.call (.take "a" unevenLimit 5)), .pass 40000000000, .ask (.call (.take "b" unevenLimit 5)),
    .ask (.call (.take "b" unevenLimit 1)), .pass 300000000000, .ask .purge, .ask .size,
    .ask (.call (.take "b" unevenLimit 0)), .pass 5000000000, .ask (.call (.take "b" unevenLimit 3))]

/-- Six takes are answered as by one bucket, although the store makes three: it gives up the first when it is asked
again just then, and a sweep removes the second. -/
theorem bucket_expiry_is_unseen_expiredTwice :
    ∃ grants : List Grant,
      (history Store.serve storeInUse ⟨0⟩ expiredTwice).filterMap (·.2.takenAt? "b") = grants.map .ok ∧
        unevenLimit.loneAnswers (none : Option (Bucket ℚ)) (takesAt "b" ⟨0⟩ expiredTwice) = grants.map .ok ∧
        grants.map (·.remaining) = [1, 0, 0, 0, 5, 2] := by
  have usable : unevenLimit.fault? = none := by decide
  have sound : storeInUse.Sound := ⟨rfl, by simp [storeInUse, Table.Distinct]⟩
  have only : OnlyTakes "b" unevenLimit expiredTwice := by
    intro c member touched
    simp only [expiredTwice, List.mem_cons, List.not_mem_nil, or_false, Event.ask.injEq, Question.call.injEq,
      reduceCtorEq, false_or] at member
    rcases member with rfl | rfl | rfl | rfl | rfl | rfl | rfl
    · exact ⟨4, rfl⟩
    · exact ⟨3, rfl⟩
    · simp [Call.key?] at touched
    · exact ⟨5, rfl⟩
    · exact ⟨1, rfl⟩
    · exact ⟨0, rfl⟩
    · exact ⟨3, rfl⟩
  have whole : ∀ seen ∈ history Store.serve storeInUse ⟨0⟩ expiredTwice, seen.2.isBreakdown = false := by
    decide +kernel
  obtain ⟨grants, answered, alone⟩ := bucket_expiry_is_unseen usable sound rfl only whole
  refine ⟨grants, answered, alone, ?_⟩
  have left : (unevenLimit.loneAnswers (none : Option (Bucket ℚ)) (takesAt "b" ⟨0⟩ expiredTwice)).filterMap
      (fun answer => answer.toOption.map (·.remaining)) = [1, 0, 0, 0, 5, 2] := by decide +kernel
  rw [alone, List.filterMap_map] at left
  simpa [Function.comp_def, Except.toOption] using left

end Turnstile
