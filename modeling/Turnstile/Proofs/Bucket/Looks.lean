import Turnstile.Proofs.Bucket.Lasting

/-!
Looking at a bucket, and being refused by it.

A take that deducts nothing, because it costs nothing or because it is refused, still changes the store: it refills
the bucket, moves the moment from which the next refill counts, and has the entry kept for longer. The main statement is
that none of this is ever seen by anybody else: put any number of such takes into a history, at any places, and every
take that was there before is answered as it was, however late it comes and whatever has expired in between.

The history with the takes put in is followed beside the history without them. At the key both stores hold as much at
every moment: what time brings in pieces it brings at once, and an entry that expires was full. So the two stores part
in when the bucket was looked at and in when its entry expires, but not in what can be taken.
-/

namespace Turnstile

/-- An event of a history, or a take that is put into it. -/
inductive Woven where
  | own (event : Event)
  | extra (cost : UInt32)

/-- The history without what is put into it. -/
def ownEvents : List Woven → List Event
  | [] => []
  | .own event :: rest => event :: ownEvents rest
  | .extra _ :: rest => ownEvents rest

/-- The history with the takes that are put into it, for a limit at a key. -/
def allEvents (key : String) (l : Limit) : List Woven → List Event
  | [] => []
  | .own event :: rest => event :: allEvents key l rest
  | .extra cost :: rest => .ask (.call (.take key l cost)) :: allEvents key l rest

/-- For each question of the history with everything in it, whether it is there without what is put in. -/
def ownQuestions : List Woven → List Bool
  | [] => []
  | .own (.ask _) :: rest => true :: ownQuestions rest
  | .own (.pass _) :: rest => ownQuestions rest
  | .extra _ :: rest => false :: ownQuestions rest

/-- What a store shows to the history with everything in it, and to whom. -/
def wovenHistory (s : Store ℚ) (now : Moment) (key : String) (l : Limit) (woven : List Woven) :
    List (Bool × Moment × Sight) :=
  (ownQuestions woven).zip (history Store.serve s now (allEvents key l woven))

/-- The answers to the takes that are not put in. -/
def ownAnswers (key : String) (seen : List (Bool × Moment × Sight)) : List (Except Failure Grant) :=
  (seen.filter (·.1)).filterMap (·.2.2.takenAt? key)

variable {l : Limit} {now : Moment} {key : String} {s s' : Store ℚ} {rest : List Woven}

/-- A question of the history itself is the first that is seen, marked as its own. -/
theorem wovenHistory_own {q : Question} (fine : (s.serve now q).2.isBreakdown = false) :
    wovenHistory s now key l (.own (.ask q) :: rest) =
      (true, now, (s.serve now q).2) :: wovenHistory (s.serve now q).1 now key l rest := by
  unfold wovenHistory
  rw [allEvents, history_ask fine]
  rfl

/-- So is a take that is put in, marked as such. -/
theorem wovenHistory_extra {cost : UInt32}
    (fine : (s.serve now (.call (.take key l cost))).2.isBreakdown = false) :
    wovenHistory s now key l (.extra cost :: rest) =
      (false, now, (s.serve now (.call (.take key l cost))).2) ::
        wovenHistory (s.serve now (.call (.take key l cost))).1 now key l rest := by
  unfold wovenHistory
  rw [allEvents, history_ask fine]
  rfl

/-- Two entries of a limit from which as much can be taken. -/
structure Level (l : Limit) (now : Moment) (e e' : Option (Entry ℚ)) : Prop where
  sustained : Sustained l now e
  sustained' : Sustained l now e'
  same : available l now e = available l now e'

/-- What can be taken later is settled by what can be taken now: a bucket gains with time, and where there is none the
capacity can be taken all along. -/
theorem available_from (l : Limit) (e : Option (Entry ℚ)) {later : Moment} (ahead : now ≤ later) :
    available l later e =
      min (l.capacity.toNat : ℚ) (available l now e + ((later.nanos : ℚ) - now.nanos) * l.speed) := by
  unfold available
  split
  · rename_i b _
    exact b.holds_from l ahead
  · have ahead' : (now.nanos : ℚ) ≤ later.nanos := by exact_mod_cast ahead
    have gained : 0 ≤ ((later.nanos : ℚ) - now.nanos) * l.speed := mul_nonneg (by linarith) l.speed_nonneg
    exact (min_eq_left (by linarith)).symm

namespace Level

variable {e e' : Option (Entry ℚ)}

/-- Time keeps two entries level, also where one of them expires and the other does not. What expires was full, so
nothing is lost with it. -/
theorem later (level : Level l now e e') {later : Moment} (ahead : now ≤ later) :
    Level l later (e.filter (·.isLive later)) (e'.filter (·.isLive later)) where
  sustained := (level.sustained.later ahead).filter _
  sustained' := (level.sustained'.later ahead).filter _
  same := by
    rw [available_filter (level.sustained.later ahead), available_filter (level.sustained'.later ahead),
      available_from l e ahead, available_from l e' ahead, level.same]

/-- From level entries a take gets the same answer and leaves the same entry, for the buckets hold as much and a take
asks for nothing else. -/
theorem onEntry_take (usable : l.fault? = none) (level : Level l now e e') (cost : UInt32) :
    Call.onEntry now (.take key l cost) e = Call.onEntry now (.take key l cost) e' := by
  obtain ⟨order, held⟩ := asked_holds level.sustained
  obtain ⟨order', held'⟩ := asked_holds level.sustained'
  have alike := Bucket.take_of_holds usable order order' (held.trans (level.same.trans held'.symm)) cost
  simp only [Call.onEntry, alike]

end Level

/-- A take in both histories is answered alike by stores that are level at the key, and leaves them level, even with the
same entry. -/
theorem level_take (usable : l.fault? = none) (sound : s.Sound) (sound' : s'.Sound)
    (level : Level l now (s.live? now key) (s'.live? now key)) {cost : UInt32}
    (fine : (s.serve now (.call (.take key l cost))).2.isBreakdown = false)
    (fine' : (s'.serve now (.call (.take key l cost))).2.isBreakdown = false) :
    ∃ grant, (s.serve now (.call (.take key l cost))).2.takenAt? key = some (.ok grant) ∧
      (s'.serve now (.call (.take key l cost))).2.takenAt? key = some (.ok grant) ∧
      Level l now ((s.serve now (.call (.take key l cost))).1.live? now key)
        ((s'.serve now (.call (.take key l cost))).1.live? now key) := by
  obtain ⟨e, grant, performed, decided, here⟩ := Store.taken_of_sound sound fine
  obtain ⟨e', grant', performed', decided', here'⟩ := Store.taken_of_sound sound' fine'
  rw [level.onEntry_take usable cost, decided'] at decided
  cases decided
  obtain ⟨-, sustained, -⟩ := Store.serve_take usable sound.distinct level.sustained cost
  obtain ⟨-, sustained', -⟩ := Store.serve_take usable sound'.distinct level.sustained' cost
  have same : available l now ((s.serve now (.call (.take key l cost))).1.live? now key) =
      available l now ((s'.serve now (.call (.take key l cost))).1.live? now key) := by
    rw [here, here']
  refine ⟨grant, ?_, ?_, { sustained := sustained, sustained' := sustained', same := same }⟩
  · simp [Store.serve, performed, Sight.ofOutcome, Sight.takenAt?]
  · simp [Store.serve, performed', Sight.ofOutcome, Sight.takenAt?]

/-- A take that is put in and deducts nothing leaves the stores level: it may refill the bucket and keep the entry for
longer, but as much can be taken as before. -/
theorem level_extra (usable : l.fault? = none) (sound : s.Sound)
    (level : Level l now (s.live? now key) (s'.live? now key)) {cost : UInt32}
    (nothing : (s.serve now (.call (.take key l cost))).2.grantedAt key = 0) :
    Level l now ((s.serve now (.call (.take key l cost))).1.live? now key) (s'.live? now key) := by
  obtain ⟨-, sustained, paid⟩ := Store.serve_take usable sound.distinct level.sustained cost
  rw [nothing, Nat.cast_zero, add_zero] at paid
  exact { sustained := sustained, sustained' := level.sustained', same := paid.trans level.same }

/-- As long as nothing breaks down, stores that are level at the key answer the takes of a history alike, whether or not
takes that deduct nothing are put into it. The induction goes along the woven history, and only its own steps move both
stores. -/
theorem answers_of_level (usable : l.fault? = none) (sound : s.Sound) (sound' : s'.Sound)
    (level : Level l now (s.live? now key) (s'.live? now key)) {woven : List Woven}
    (only : OnlyTakes key l (ownEvents woven))
    (whole : ∀ seen ∈ history Store.serve s now (allEvents key l woven), seen.2.isBreakdown = false)
    (whole' : ∀ seen ∈ history Store.serve s' now (ownEvents woven), seen.2.isBreakdown = false)
    (nothing : ∀ seen ∈ wovenHistory s now key l woven, seen.1 = false → seen.2.2.grantedAt key = 0) :
    ∃ grants : List Grant, grants.length = (takesAt key now (ownEvents woven)).length ∧
      (history Store.serve s' now (ownEvents woven)).filterMap (·.2.takenAt? key) = grants.map .ok ∧
        ownAnswers key (wovenHistory s now key l woven) = grants.map .ok := by
  induction woven generalizing now s s' with
  | nil => exact ⟨[], rfl, rfl, rfl⟩
  | cons step rest inductionHypothesis =>
    cases step with
    | extra cost =>
      obtain ⟨fine, remaining⟩ := history_whole whole
      rw [wovenHistory_extra fine] at nothing ⊢
      have level' := level_extra usable sound level (nothing _ List.mem_cons_self rfl)
      exact inductionHypothesis (Store.serve_sound sound fine) sound' level' only remaining whole'
        fun seen member => nothing seen (List.mem_cons_of_mem _ member)
    | own event =>
      cases event with
      | pass nanos =>
        have ahead : now ≤ ⟨now.nanos + nanos⟩ := Nat.le_add_right now.nanos nanos
        have level' := level.later ahead
        rw [← Store.live?_later s ahead key, ← Store.live?_later s' ahead key] at level'
        exact inductionHypothesis sound sound' level' only.later whole whole' nothing
      | ask q =>
        obtain ⟨fine, remaining⟩ := history_whole whole
        obtain ⟨fine', remaining'⟩ := history_whole whole'
        rw [wovenHistory_own fine] at nothing ⊢
        have next := @inductionHypothesis now _ _ (Store.serve_sound sound fine) (Store.serve_sound sound' fine')
        have nothing' := fun seen member => nothing seen (List.mem_cons_of_mem _ member)
        rw [ownEvents, history_ask fine', List.filterMap_cons]
        cases concerned : (Event.ask q).concerns key with
        | false =>
          have here := (Store.serve_elsewhere now sound.distinct concerned).2.1
          have here' := (Store.serve_elsewhere now sound'.distinct concerned).2.1
          obtain ⟨grants, many, answered, alike⟩ := next (by rwa [here, here']) only.later remaining remaining' nothing'
          refine ⟨grants, ?_, ?_, ?_⟩
          · rw [takesAt_elsewhere concerned]
            exact many
          · rw [Store.serve_takenAt concerned]
            exact answered
          · simpa [ownAnswers, Store.serve_takenAt concerned] using alike
        | true =>
          obtain ⟨cost, rfl⟩ := only.take concerned
          obtain ⟨grant, seen, seen', level'⟩ := level_take usable sound sound' level fine fine'
          obtain ⟨grants, many, answered, alike⟩ := next level' only.later remaining remaining' nothing'
          refine ⟨grant :: grants, ?_, ?_, ?_⟩
          · simpa [takesAt] using many
          · rw [seen']
            simp [answered]
          · simpa [ownAnswers, seen] using alike

/-- Looking costs nothing, and neither does being refused: takes that deduct nothing can be put into a history of one
usable limit's takes at any places, and as long as nothing breaks down each take that was there before is answered, with
the same grant. -/
theorem unpaid_takes_are_unseen (usable : l.fault? = none) (sound : s.Sound) {start : Moment}
    (free : s.live? start key = none) {woven : List Woven} (only : OnlyTakes key l (ownEvents woven))
    (whole : ∀ seen ∈ history Store.serve s start (ownEvents woven), seen.2.isBreakdown = false)
    (wholeToo : ∀ seen ∈ history Store.serve s start (allEvents key l woven), seen.2.isBreakdown = false)
    (nothing : ∀ seen ∈ wovenHistory s start key l woven, seen.1 = false → seen.2.2.grantedAt key = 0) :
    ∃ grants : List Grant, grants.length = (takesAt key start (ownEvents woven)).length ∧
      (history Store.serve s start (ownEvents woven)).filterMap (·.2.takenAt? key) = grants.map .ok ∧
        ownAnswers key (wovenHistory s start key l woven) = grants.map .ok := by
  have untouched : Sustained l start (s.live? start key) := by
    rw [free]
    intro b expires same
    cases same
  have level : Level l start (s.live? start key) (s.live? start key) :=
    { sustained := untouched, sustained' := untouched, same := rfl }
  exact answers_of_level usable sound sound level only wholeToo whole nothing

/-- Between three takes, two of them across the expiry of the bucket, it is looked at often, which keeps it alive, and it
refuses more than it holds. -/
def lookedAt : List Woven :=
  [.extra 0, .own (.ask (.call (.take "b" unevenLimit 4))), .extra 3, .own (.pass 7000000000), .extra 0,
    .own (.pass 5000000000), .own (.ask (.call (.take "a" unevenLimit 5))), .extra 9,
    .own (.ask (.call (.take "b" unevenLimit 3))), .own (.pass 20000000000), .extra 5, .own (.ask .purge),
    .own (.pass 23000000000), .own (.ask (.call (.take "b" unevenLimit 4))), .extra 2, .own (.ask .size)]

/-- Three takes are granted alike with and without the looks and refusals in between, which keep the bucket alive that
expires without them. -/
theorem unpaid_takes_are_unseen_lookedAt :
    ∃ grants : List Grant, grants.map (·.remaining) = [1, 0, 1] ∧
      (history Store.serve storeInUse ⟨0⟩ (ownEvents lookedAt)).filterMap (·.2.takenAt? "b") = grants.map .ok ∧
        ownAnswers "b" (wovenHistory storeInUse ⟨0⟩ "b" unevenLimit lookedAt) = grants.map .ok := by
  have usable : unevenLimit.fault? = none := by decide
  have sound : storeInUse.Sound := ⟨rfl, by simp [storeInUse, Table.Distinct]⟩
  have only : OnlyTakes "b" unevenLimit (ownEvents lookedAt) := by
    intro c member touched
    simp only [lookedAt, ownEvents, List.mem_cons, List.not_mem_nil, or_false, Event.ask.injEq, Question.call.injEq,
      reduceCtorEq, false_or] at member
    rcases member with rfl | rfl | rfl | rfl
    · exact ⟨4, rfl⟩
    · simp [Call.key?] at touched
    · exact ⟨3, rfl⟩
    · exact ⟨4, rfl⟩
  have whole : ∀ seen ∈ history Store.serve storeInUse ⟨0⟩ (ownEvents lookedAt), seen.2.isBreakdown = false := by
    decide +kernel
  have wholeToo : ∀ seen ∈ history Store.serve storeInUse ⟨0⟩ (allEvents "b" unevenLimit lookedAt),
      seen.2.isBreakdown = false := by decide +kernel
  have nothing : ∀ seen ∈ wovenHistory storeInUse ⟨0⟩ "b" unevenLimit lookedAt,
      seen.1 = false → seen.2.2.grantedAt "b" = 0 := by decide +kernel
  obtain ⟨grants, -, answered, alike⟩ := unpaid_takes_are_unseen usable sound rfl only whole wholeToo nothing
  refine ⟨grants, ?_, answered, alike⟩
  have left : (((history Store.serve storeInUse ⟨0⟩ (ownEvents lookedAt)).filterMap (·.2.takenAt? "b")).filterMap
      fun answer => answer.toOption.map (·.remaining)) = [1, 0, 1] := by decide +kernel
  rw [answered, List.filterMap_map] at left
  simpa [Function.comp_def, Except.toOption] using left

end Turnstile
