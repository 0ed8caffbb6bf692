import Turnstile.Proofs.Store.Serving

/-!
The store compared with a map that never cleans up.

The map of this file keeps every entry that was ever written and not removed by a call. It has no sweep, no
schedule and no removal on access: an entry that has expired is simply not looked at. The main statement is that
over any events a store shows what this map shows, at the same moments, so that when and how a store cleans up can
not be seen; and that what is shown at one key is the same as if only the calls at that key had been made.
Breakdowns are part of the comparison. The only premise on time is that the clock can show the sweep after the
last event.
-/

namespace Turnstile

/-- A map from keys to entries that forgets nothing by itself. -/
structure Expiring (α : Type) where
  entries : Table String (Entry α)

namespace Expiring

variable {α : Type}

/-- No entries. -/
def empty : Expiring α := ⟨.empty⟩

/-- The entry at a key, unless it has expired. -/
def live? (m : Expiring α) (now : Moment) (key : String) : Option (Entry α) :=
  (m.entries.find? key).filter (·.isLive now)

/-- Writes what is left at a key. Where nothing is live there is nothing to remove. -/
def leave (m : Expiring α) (now : Moment) (key : String) : Option (Entry α) → Expiring α
  | some e => ⟨m.entries.insert key e⟩
  | none => if (m.live? now key).isSome then ⟨m.entries.erase key⟩ else m

variable [TokenNumber α]

/-- Both show the same, and show the same live entries afterwards unless they broke down. A call is decided by the live
entry at its key, and that is the same; a sweep takes out what can not be seen. -/
def serve (m : Expiring α) (now : Moment) : Question → Expiring α × Sight
  | .call c =>
    match c.key? with
    | none => (m, .ofOutcome (.replied c) ((c.onEntry now (none : Option (Entry α))).map (.ok ·.2)))
    | some key =>
      match c.onEntry now (m.live? now key) with
      | .ok (e, reply) => (m.leave now key e, .replied c (.ok reply))
      | .error why => (m, .broke why)
  | .purge => (m, .purged (.ok ()))
  | .size => (m, .counted (m.entries.count (·.isLive now)))

omit [TokenNumber α] in
/-- What is left at a key is live there until it expires, and other keys are as they were. Where nothing is left, the
entry is taken out only if it is live; an expired one may remain, as it can not be seen. -/
theorem live?_leave (m : Expiring α) (now : Moment) (key : String) (e : Option (Entry α)) (k : String) :
    (m.leave now key e).live? now k = if k = key then e.filter (·.isLive now) else m.live? now k := by
  cases e with
  | some e => by_cases same : k = key <;> simp [leave, live?, Table.find?_insert, same]
  | none =>
    simp only [leave]
    by_cases present : (m.live? now key).isSome = true
    · rw [if_pos present]
      by_cases same : k = key <;> simp [live?, Table.find?_erase, same]
    · have nothing : m.live? now key = none := by simpa using present
      by_cases same : k = key <;> simp [nothing, same]

omit [TokenNumber α] in
/-- Keys stay apart, whatever is left at one of them. -/
theorem distinct_leave {m : Expiring α} (distinct : m.entries.Distinct) (now : Moment) (key : String)
    (e : Option (Entry α)) : (m.leave now key e).entries.Distinct := by
  cases e with
  | some e => exact Table.distinct_insert _ distinct _ _
  | none =>
    simp only [leave]
    by_cases present : (m.live? now key).isSome = true
    · rw [if_pos present]
      exact Table.distinct_erase _ distinct _
    · rw [if_neg present]
      exact distinct

end Expiring

variable {α : Type}

/-- A sound store and a map that show the same live entries, the store with a given interval between sweeps. -/
structure Mirrors (interval : Span) (now : Moment) (s : Store α) (m : Expiring α) : Prop where
  sound : s.Sound
  spaced : s.sweepInterval = interval
  distinct : m.entries.Distinct
  same : ∀ key, s.live? now key = m.live? now key

namespace Mirrors

variable {interval : Span} {now last next : Moment} {s : Store α} {m : Expiring α}

/-- What is the same now is the same later, for whether an entry has expired depends on the time only. -/
theorem later (mirrors : Mirrors interval now s m) {later : Moment} (ahead : now ≤ later) :
    Mirrors interval later s m where
  sound := mirrors.sound
  spaced := mirrors.spaced
  distinct := mirrors.distinct
  same key := by
    have here : m.live? later key = (m.live? now key).filter (·.isLive later) :=
      (Store.filter_live (m.entries.find? key) ahead).symm
    rw [here, ← mirrors.same key, Store.live?_later s ahead key]

/-- As many entries are live in both, for they have the same live entry at every key. -/
theorem size_eq (mirrors : Mirrors interval now s m) : s.size now = m.entries.count (·.isLive now) := by
  unfold Store.size
  rw [mirrors.sound.unbroken]
  exact Table.count_eq mirrors.sound.distinct mirrors.distinct mirrors.same

variable [TokenNumber α]

/-- Both show the same, and show the same live entries afterwards unless they broke down. -/
theorem serve (mirrors : Mirrors interval now s m) (soon : now ≤ last)
    (room : Store.later last interval = .ok next) (q : Question) :
    (s.serve now q).2 = (m.serve now q).2 ∧
      ((s.serve now q).2.isBreakdown = false →
        Mirrors interval now (s.serve now q).1 (m.serve now q).1) := by
  obtain ⟨due, inTime⟩ := Store.later_room soon room
  rw [← mirrors.spaced] at inTime
  cases q with
  | size => exact ⟨congrArg Sight.counted mirrors.size_eq, fun _ => mirrors⟩
  | purge =>
    obtain ⟨s', removed, purged, sound, spaced, shown⟩ := Store.purge_ok mirrors.sound inTime
    simp only [Store.serve, Expiring.serve, purged]
    refine ⟨rfl, fun _ => ?_⟩
    exact {
      sound := sound
      spaced := spaced.trans mirrors.spaced
      distinct := mirrors.distinct
      same := fun key => (shown key).trans (mirrors.same key) }
  | call c =>
    cases touched : c.key? with
    | none =>
      cases c <;> cases touched
      exact ⟨rfl, fun _ => mirrors⟩
    | some key =>
      cases decided : c.onEntry now (m.live? now key) with
      | error why =>
        have broke := Store.perform_undecided mirrors.sound inTime touched (mirrors.same key ▸ decided)
        simp only [Store.serve, Expiring.serve, touched, decided, broke]
        exact ⟨rfl, fun fine => by cases fine⟩
      | ok outcome =>
        obtain ⟨e, reply⟩ := outcome
        obtain ⟨s', performed, sound, spaced, here, others⟩ :=
          Store.perform_decided mirrors.sound inTime touched (mirrors.same key ▸ decided)
        simp only [Store.serve, Expiring.serve, touched, decided, performed]
        have same (k : String) : s'.live? now k = (m.leave now key e).live? now k := by
          rw [Expiring.live?_leave]
          by_cases same : k = key
          · rw [if_pos same, same, here]
          · rw [if_neg same, others k same, mirrors.same k]
        refine ⟨rfl, fun _ => ?_⟩
        exact {
          sound := sound
          spaced := spaced.trans mirrors.spaced
          distinct := Expiring.distinct_leave mirrors.distinct now key e
          same := same }

end Mirrors

/-- Two sound stores with a given interval between sweeps that show the same entry at a key. -/
structure AgreeAt (key : String) (interval : Span) (now : Moment) (s t : Store α) : Prop where
  sound : s.Sound
  sound' : t.Sound
  spaced : s.sweepInterval = interval
  spaced' : t.sweepInterval = interval
  same : s.live? now key = t.live? now key

namespace AgreeAt

variable {key : String} {interval : Span} {now last next : Moment} {s t : Store α}

/-- Stores that show the same at a key go on to do so as time passes. -/
theorem later (agree : AgreeAt key interval now s t) {later : Moment} (ahead : now ≤ later) :
    AgreeAt key interval later s t where
  sound := agree.sound
  sound' := agree.sound'
  spaced := agree.spaced
  spaced' := agree.spaced'
  same := by rw [Store.live?_later s ahead key, Store.live?_later t ahead key, agree.same]

/-- It does not matter what else becomes of one of the stores, as long as it remains sound and shows the same at the
key. -/
theorem left {s' : Store α} (agree : AgreeAt key interval now s t) (sound : s'.Sound) (spaced : s'.sweepInterval = interval)
    (shown : s'.live? now key = s.live? now key) : AgreeAt key interval now s' t where
  sound := sound
  sound' := agree.sound'
  spaced := spaced
  spaced' := agree.spaced'
  same := shown.trans agree.same

variable [TokenNumber α]

/-- A call at the key shows the same, and leaves the same there unless it breaks down. It is decided in both by what
they show at the key, whatever else they keep. -/
theorem call_here (agree : AgreeAt key interval now s t) (soon : now ≤ last)
    (room : Store.later last interval = .ok next) {c : Call} (touched : c.key? = some key) :
    (s.serve now (.call c)).2 = (t.serve now (.call c)).2 ∧
      ((s.serve now (.call c)).2.isBreakdown = false →
        AgreeAt key interval now (s.serve now (.call c)).1 (t.serve now (.call c)).1 ∧
          (s.serve now (.call c)).2.isAt key = true) := by
  obtain ⟨due, inTime⟩ := Store.later_room soon room
  have inTime' : Store.later now t.sweepInterval = .ok due := by rw [agree.spaced', inTime]
  rw [← agree.spaced] at inTime
  cases decided : c.onEntry now (t.live? now key) with
  | error why =>
    have broke := Store.perform_undecided agree.sound inTime touched (agree.same ▸ decided)
    have broke' := Store.perform_undecided agree.sound' inTime' touched decided
    simp only [Store.serve, broke, broke']
    exact ⟨trivial, fun fine => by cases fine⟩
  | ok outcome =>
    obtain ⟨e, reply⟩ := outcome
    obtain ⟨s', performed, sound, spaced, here, -⟩ :=
      Store.perform_decided agree.sound inTime touched (agree.same ▸ decided)
    obtain ⟨t', performed', sound', spaced', here', -⟩ :=
      Store.perform_decided agree.sound' inTime' touched decided
    simp only [Store.serve, performed, performed']
    refine ⟨trivial, fun _ => ⟨?_, decide_eq_true touched⟩⟩
    exact {
      sound := sound
      sound' := sound'
      spaced := spaced.trans agree.spaced
      spaced' := spaced'.trans agree.spaced'
      same := here.trans here'.symm }

/-- Any other question leaves what is at the key, unless it breaks down. So only one of the two histories goes on, and
its answer is not one at the key. -/
theorem ask_elsewhere (agree : AgreeAt key interval now s t) (soon : now ≤ last)
    (room : Store.later last interval = .ok next) {q : Question}
    (elsewhere : (Event.ask q).concerns key = false) (fine : (s.serve now q).2.isBreakdown = false) :
    AgreeAt key interval now (s.serve now q).1 t ∧ (s.serve now q).2.isAt key = false := by
  obtain ⟨due, inTime⟩ := Store.later_room soon room
  rw [← agree.spaced] at inTime
  cases q with
  | size => exact ⟨agree, rfl⟩
  | purge =>
    obtain ⟨s', removed, purged, sound, spaced, shown⟩ := Store.purge_ok agree.sound inTime
    simp only [Store.serve, purged]
    exact ⟨agree.left sound (spaced.trans agree.spaced) (shown key), rfl⟩
  | call c =>
    cases touched : c.key? with
    | none =>
      cases c <;> cases touched
      exact ⟨agree, rfl⟩
    | some other =>
      have apart : other ≠ key := by
        intro same
        simp [Event.concerns, touched, same] at elsewhere
      cases decided : c.onEntry now (s.live? now other) with
      | error why =>
        have broke := Store.perform_undecided agree.sound inTime touched decided
        simp only [Store.serve, broke] at fine
        cases fine
      | ok outcome =>
        obtain ⟨e, reply⟩ := outcome
        obtain ⟨s', performed, sound, spaced, -, others⟩ :=
          Store.perform_decided agree.sound inTime touched decided
        simp only [Store.serve, performed]
        refine ⟨agree.left sound (spaced.trans agree.spaced) (others key (Ne.symm apart)), ?_⟩
        simpa [Sight.ofOutcome, Sight.isAt, touched] using apart

/-- What is shown at a key is what is shown where only the calls at that key are made. The induction is on the events:
both stores take the calls at the key, and the other one alone takes the rest. -/
theorem history_at (agree : AgreeAt key interval now s t) (events : List Event)
    (inTime : finish now events ≤ last) (room : Store.later last interval = .ok next)
    (fine : ∀ seen ∈ history Store.serve s now events, seen.2.isBreakdown = false) :
    (history Store.serve s now events).filter (·.2.isAt key) =
      history Store.serve t now (events.filter (·.concerns key)) := by
  induction events generalizing now s t with
  | nil => rfl
  | cons event rest inductionHypothesis =>
    cases event with
    | pass nanos =>
      have ahead : now ≤ ⟨now.nanos + nanos⟩ := Nat.le_add_right now.nanos nanos
      exact inductionHypothesis (agree.later ahead) inTime fine
    | ask q =>
      have soon : now ≤ last := Nat.le_trans (le_finish now rest) inTime
      have up : (s.serve now q).2.isBreakdown = false := fine (now, _) List.mem_cons_self
      have fine' : ∀ seen ∈ history Store.serve (s.serve now q).1 now rest, seen.2.isBreakdown = false := by
        intro seen member
        refine fine seen ?_
        simp only [history, up, Bool.false_eq_true, if_false]
        exact List.mem_cons_of_mem _ member
      cases concerned : (Event.ask q).concerns key with
      | false =>
        obtain ⟨next, hidden⟩ := agree.ask_elsewhere soon room concerned up
        have remaining := inductionHypothesis next inTime fine'
        simp only [history, up, Bool.false_eq_true, if_false, List.filter_cons, hidden, concerned, remaining]
      | true =>
        obtain ⟨c, rfl, touched⟩ : ∃ c, q = .call c ∧ c.key? = some key := by
          cases q with
          | call c => exact ⟨c, rfl, of_decide_eq_true concerned⟩
          | purge => cases concerned
          | size => cases concerned
        obtain ⟨same, next⟩ := agree.call_here soon room touched
        obtain ⟨agree', shown⟩ := next up
        have remaining := inductionHypothesis agree' inTime fine'
        rw [same] at up shown
        simp only [history, up, Bool.false_eq_true, if_false, List.filter_cons, shown, concerned, if_true,
          remaining, same]

end AgreeAt

variable [TokenNumber α]

/-- How and when a store cleans up can not be seen: whatever it is asked, it shows what a map shows that keeps every
expired entry and does not look at it. And as long as nothing breaks down, what is shown at a key is what would be
shown there if only the calls at that key had been made. -/
theorem cleaning_is_unseen {s : Store α} {start : Moment} {interval : Span} (events : List Event) {next : Moment}
    (opened : Store.empty start interval = .ok s)
    (room : Store.later (finish start events) interval = .ok next) :
    history Store.serve s start events = history Expiring.serve (.empty : Expiring α) start events ∧
      ((∀ seen ∈ history Store.serve s start events, seen.2.isBreakdown = false) →
        ∀ key, (history Store.serve s start events).filter (·.2.isAt key) =
          history Store.serve s start (events.filter (·.concerns key))) := by
  obtain ⟨sound, spaced, nothing⟩ := Store.empty_ok opened
  have mirrors : Mirrors interval start s .empty :=
    { sound := sound, spaced := spaced, distinct := Table.distinct_empty, same := nothing start }
  have agree (key : String) : AgreeAt key interval start s s :=
    { sound := sound, sound' := sound, spaced := spaced, spaced' := spaced, same := rfl }
  refine ⟨?_, fun fine key => (agree key).history_at events (Nat.le_refl _) room fine⟩
  exact history_eq (Mirrors interval) (finish start events)
    (fun _ _ _ q soon mirrors => mirrors.serve soon room q) (fun _ _ _ _ ahead mirrors => mirrors.later ahead)
    start s .empty events (Nat.le_refl _) mirrors

/-- A text and a bucket that expire while others are used, just before a sweep, at one and long after it. -/
def mixedUse : List Event :=
  [.ask (.call (.set "a" "first" (.ofSeconds 5))), .ask (.call (.take "b" ⟨2, 1, .ofSeconds 1⟩ 2)),
    .pass 5000000000, .ask (.call (.get "a")), .ask .size, .ask (.call (.setIfAbsent "a" "second" (.ofSeconds 5))),
    .pass 5000000000, .ask (.call (.take "b" ⟨2, 1, .ofSeconds 1⟩ 1)), .ask (.call (.delete "a")),
    .pass 90000000000, .ask .purge, .ask (.call (.compareAndSet "a" "second" "third" (.ofSeconds 5))), .ask .size]

/-- A text and a bucket that expire in between, seen the same with sweeps and without. -/
theorem cleaning_is_unseen_mixedUse :
    ∃ s : Store Binary64, Store.empty ⟨0⟩ (.ofSeconds 10) = .ok s ∧
      history Store.serve s ⟨0⟩ mixedUse = history Expiring.serve (.empty : Expiring Binary64) ⟨0⟩ mixedUse ∧
      ∀ key, (history Store.serve s ⟨0⟩ mixedUse).filter (·.2.isAt key) =
        history Store.serve s ⟨0⟩ (mixedUse.filter (·.concerns key)) := by
  have opened : Store.empty ⟨0⟩ (.ofSeconds 10) =
      .ok (⟨.empty, ⟨10000000000⟩, .ofSeconds 10, false⟩ : Store Binary64) := rfl
  have room : Store.later (finish ⟨0⟩ mixedUse) (.ofSeconds 10) = .ok ⟨110000000000⟩ := rfl
  obtain ⟨same, apart⟩ := cleaning_is_unseen mixedUse opened room
  exact ⟨_, opened, same, apart (by decide +kernel)⟩

end Turnstile
