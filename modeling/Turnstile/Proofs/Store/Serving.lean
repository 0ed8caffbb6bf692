import Turnstile.Proofs.Store.View

/-!
A store in use.

A store is asked questions while time passes: calls, and the two questions that concern no single key, how many
entries are live and to remove those that are not. The history of a keeper of entries is what it showed, and when,
up to the first breakdown. It is defined for every keeper that serves questions, so that a store can be compared
with another way to keep the same entries.

A sound store with room for its next sweep serves a call exactly as the live entry at the call's key decides, and
breaks down exactly where that decision does.
-/

namespace Turnstile

/-- What a keeper of entries can be asked. -/
inductive Question where
  | call (c : Call)
  /-- To remove what has expired. -/
  | purge
  /-- How many entries are live. -/
  | size

/-- A question, or time that passes. -/
inductive Event where
  | ask (q : Question)
  | pass (nanos : Nat)

/-- What a question shows. How many entries a purge removed is left out: it tells how they are kept. -/
inductive Sight where
  | replied (c : Call) (reply : Except Failure c.Reply)
  | purged (reply : Except Failure Unit)
  | counted (n : Nat)
  | broke (why : Breakdown)

namespace Sight

/-- What an outcome shows. -/
def ofOutcome {ρ : Type} (shown : Except Failure ρ → Sight) : Except Breakdown (Except Failure ρ) → Sight
  | .ok reply => shown reply
  | .error why => .broke why

def isBreakdown : Sight → Bool
  | broke _ => true
  | _ => false

/-- Whether it is the reply to a call at a key. -/
def isAt (key : String) : Sight → Bool
  | replied c _ => c.key? = some key
  | _ => false

end Sight

/-- Whether it is a call at a key, or time. -/
def Event.concerns (key : String) : Event → Bool
  | ask (.call c) => c.key? = some key
  | ask _ => false
  | pass _ => true

/-- When the last of the events happens. -/
def finish (now : Moment) : List Event → Moment
  | [] => now
  | .ask _ :: rest => finish now rest
  | .pass nanos :: rest => finish ⟨now.nanos + nanos⟩ rest

/-- Events do not take time back: questions take none, and each pause moves the clock ahead. -/
theorem le_finish (now : Moment) (events : List Event) : now ≤ finish now events := by
  induction events generalizing now with
  | nil => exact Nat.le_refl _
  | cons event rest inductionHypothesis =>
    cases event with
    | ask q => exact inductionHypothesis now
    | pass nanos =>
      have soon : now.nanos ≤ now.nanos + nanos := Nat.le_add_right _ _
      exact Nat.le_trans soon (inductionHypothesis ⟨now.nanos + nanos⟩)

/-- What a keeper shows over events, and when, up to the first breakdown. -/
def history {σ : Type} (serve : σ → Moment → Question → σ × Sight) (s : σ) (now : Moment) :
    List Event → List (Moment × Sight)
  | [] => []
  | .pass nanos :: rest => history serve s ⟨now.nanos + nanos⟩ rest
  | .ask q :: rest =>
    (now, (serve s now q).2) ::
      if (serve s now q).2.isBreakdown then [] else history serve (serve s now q).1 now rest

/-- Keepers that show the same at every step, as long as they are related, have the same history. The relation is kept
by questions and by pauses, and after a breakdown nothing more is compared. -/
theorem history_eq {σ τ : Type} {serve : σ → Moment → Question → σ × Sight}
    {serve' : τ → Moment → Question → τ × Sight} (related : Moment → σ → τ → Prop) (last : Moment)
    (served : ∀ now s t q, now ≤ last → related now s t →
      (serve s now q).2 = (serve' t now q).2 ∧
        ((serve s now q).2.isBreakdown = false → related now (serve s now q).1 (serve' t now q).1))
    (waited : ∀ now later s t, now ≤ later → related now s t → related later s t)
    (now : Moment) (s : σ) (t : τ) (events : List Event) (inTime : finish now events ≤ last)
    (start : related now s t) :
    history serve s now events = history serve' t now events := by
  induction events generalizing now s t with
  | nil => rfl
  | cons event rest inductionHypothesis =>
    cases event with
    | pass nanos =>
      have ahead : now ≤ ⟨now.nanos + nanos⟩ := Nat.le_add_right now.nanos nanos
      exact inductionHypothesis _ s t inTime (waited now _ s t ahead start)
    | ask q =>
      have soon : now ≤ last := Nat.le_trans (le_finish now rest) inTime
      obtain ⟨same, next⟩ := served now s t q soon start
      simp only [history, ← same]
      cases down : (serve s now q).2.isBreakdown with
      | true => rfl
      | false =>
        have remaining := inductionHypothesis now _ _ inTime (next down)
        simp only [Bool.false_eq_true, if_false, remaining]

namespace Store

variable {α : Type}

/-- It is not broken, and no key occurs twice. -/
structure Sound (s : Store α) : Prop where
  unbroken : s.isBroken = false
  distinct : s.entries.Distinct

/-- An empty store is sound, shows nothing and keeps its interval, provided that its first sweep has a moment. -/
theorem empty_ok {s : Store α} {start : Moment} {interval : Span} (opened : Store.empty start interval = .ok s) :
    s.Sound ∧ s.sweepInterval = interval ∧ ∀ now key, s.live? now key = none := by
  unfold Store.empty at opened
  cases reached : later start interval with
  | error why => rw [reached] at opened; cases opened
  | ok next =>
    rw [reached] at opened
    cases opened
    exact ⟨⟨rfl, Table.distinct_empty⟩, rfl, fun _ _ => rfl⟩

/-- Where there is room for a span later on, there is room for it now: the end of the span comes earlier. -/
theorem later_room {now last next : Moment} {s : Span} (soon : now ≤ last) (room : later last s = .ok next) :
    ∃ next, later now s = .ok next := by
  have ahead : now.nanos ≤ last.nanos := soon
  unfold later Moment.after? at room ⊢
  by_cases inside : last.nanos + s.nanos < Moment.secondsLimit * nanosPerSecond
  · have before : now.nanos + s.nanos < Moment.secondsLimit * nanosPerSecond := by omega
    rw [if_pos before]
    exact ⟨_, rfl⟩
  · rw [if_neg inside] at room
    cases room

/-- Two stores that differ at most in their entries and in when they sweep next. -/
def Alike (s s' : Store α) : Prop := s'.isBroken = s.isBroken ∧ s'.sweepInterval = s.sweepInterval

/-- A sweep is not due, or there is room for the next one. -/
def Settles (s : Store α) (now : Moment) : Prop := now < s.nextSweep ∨ ∃ next, later now s.sweepInterval = .ok next

/-- Settling needs room for the next sweep and nothing else. Where no sweep is due it looks at one entry, and that
always goes well. -/
theorem Settles.settled {s : Store α} {now : Moment} (settles : s.Settles now) (key : String) :
    ∃ s', s.settled now key = .ok s' ∧ s.Alike s' := by
  unfold Store.settled
  by_cases due : s.nextSweep ≤ now
  · rcases settles with early | ⟨next, room⟩
    · exact absurd due (Nat.not_le.mpr early)
    · rw [if_pos due, room]
      exact ⟨_, rfl, rfl, rfl⟩
  · rw [if_neg due]
    cases s.entries.find? key with
    | none => exact ⟨s, rfl, rfl, rfl⟩
    | some e =>
      refine ⟨_, rfl, ?_⟩
      split <;> exact ⟨rfl, rfl⟩

/-- A store that was settled can be settled again: either it was swept, so there is room for a sweep now, or its next
sweep is still ahead. -/
theorem settled_settles {s s' : Store α} {now : Moment} {key : String} (settled : s.settled now key = .ok s') :
    s'.Settles now := by
  obtain ⟨next, reached, rfl⟩ | ⟨early, ⟨rfl, -⟩ | ⟨rfl, -⟩⟩ := settled_cases settled
  · exact .inr ⟨next, reached⟩
  · exact .inl early
  · exact .inl early

variable [TokenNumber α]

/-- Answering changes nothing but the entries, whichever call it is. Sweeps and breakdowns are decided around it. -/
theorem answer_entries {s s' : Store α} {now : Moment} {c : Call} {reply : c.Reply}
    (answered : s.answer now c = .ok (s', reply)) : s' = { s with entries := s'.entries } := by
  cases c with
  | get _ => cases answered; rfl
  | set _ _ _ =>
    obtain ⟨expires, -, rfl, -⟩ := putText_ok answered
    rfl
  | setIfAbsent key _ _ =>
    simp only [answer] at answered
    split at answered
    · cases answered; rfl
    · obtain ⟨expires, -, rfl, -⟩ := putText_ok answered
      rfl
  | compareAndSet _ _ _ _ =>
    simp only [answer] at answered
    split at answered
    · obtain ⟨expires, -, rfl, -⟩ := putText_ok answered
      rfl
    · cases answered; rfl
  | delete _ => cases answered; rfl
  | deleteIfEquals _ _ =>
    simp only [answer] at answered
    split at answered <;> cases answered <;> rfl
  | take key limit cost =>
    simp only [answer, takeTokens] at answered
    rcases taken : (s.bucketAt now key limit).take limit cost now with ⟨bucket, _ | grant⟩
    · rw [taken] at answered; cases answered
    · rw [taken] at answered
      cases kept : limit.keep with
      | error why => rw [kept] at answered; cases answered
      | ok span =>
        cases reached : later now span with
        | error why => simp [kept, reached, bind, Except.bind] at answered
        | ok expires =>
          simp only [kept, reached, bind, Except.bind, pure, Except.pure] at answered
          cases answered
          rfl
  | ping => cases answered; rfl

/-- Answering leaves the store as broken or whole as it was, with the same interval, since only the entries change. -/
theorem answer_frame {s s' : Store α} {now : Moment} {c : Call} {reply : c.Reply}
    (answered : s.answer now c = .ok (s', reply)) : s.Alike s' := by
  rw [answer_entries answered]
  exact ⟨rfl, rfl⟩

/-- A settled store replies as the entry at the call's key decides, and breaks down where that decision does. Both make
the same case distinctions, one on the store and one on the entry. -/
theorem answer_reply (s : Store α) (now : Moment) {c : Call} {key : String} (touched : c.key? = some key) :
    (s.answer now c).map (·.2) = (c.onEntry now (s.entries.find? key)).map (·.2) := by
  cases c with
  | ping => cases touched
  | get _ => cases touched; simp only [answer, Call.onEntry, textAt?_eq]; rfl
  | set _ value life =>
    cases touched
    simp only [answer, Call.onEntry, putText]
    cases later now life <;> rfl
  | setIfAbsent _ value life =>
    cases touched
    simp only [answer, Call.onEntry, putText]
    split
    · rfl
    · cases later now life <;> rfl
  | compareAndSet _ expected value life =>
    cases touched
    simp only [answer, Call.onEntry, putText, textAt?_eq]
    split
    · cases later now life <;> rfl
    · rfl
  | delete _ => cases touched; rfl
  | deleteIfEquals _ expected =>
    cases touched
    simp only [answer, Call.onEntry, textAt?_eq]
    split <;> rfl
  | take _ limit cost =>
    cases touched
    simp only [answer, Call.onEntry, takeTokens, bucketAt_eq]
    rcases (((s.entries.find? key).bind Entry.bucket?).getD (.full limit now)).take limit cost now
      with ⟨bucket, _ | grant⟩
    · rfl
    · cases kept : limit.keep with
      | error why => rfl
      | ok span => cases reached : later now span <;> simp [reached, bind, Except.bind, pure, Except.pure, Except.map]

/-- Where the live entry at a call's key decides the call, a sound store that can be settled replies so, shows the
outcome at the key and shows all other keys as they were. Settling leaves just that entry to be answered from. -/
theorem perform_settled {s : Store α} {now : Moment} (sound : s.Sound) (settles : s.Settles now) {c : Call}
    {key : String} (touched : c.key? = some key) {e : Option (Entry α)} {reply : c.Reply}
    (decided : c.onEntry now (s.live? now key) = .ok (e, reply)) :
    ∃ s', s.perform now c = (s', .ok (.ok reply)) ∧ s'.Sound ∧ s'.sweepInterval = s.sweepInterval ∧
      s'.live? now key = e.filter (·.isLive now) ∧ ∀ k, k ≠ key → s'.live? now k = s.live? now k := by
  obtain ⟨base, settled, unbroken, interval⟩ := settles.settled key
  obtain ⟨-, shown, -⟩ := settled_ok sound.distinct settled
  have replied := answer_reply base now touched
  rw [shown, decided] at replied
  cases answered : base.answer now c with
  | error why => rw [answered] at replied; cases replied
  | ok result =>
    obtain ⟨s', reply'⟩ := result
    rw [answered] at replied
    injection replied with same
    obtain rfl : reply' = reply := same
    obtain ⟨unbroken', interval'⟩ := answer_frame answered
    have whole : s'.isBroken = false := unbroken'.trans (unbroken.trans sound.unbroken)
    have performed : s.perform now c = (s', .ok (.ok reply')) := by
      rw [perform_at s now touched]
      simp only [change, sound.unbroken, settled, bind, Except.bind, answered, Bool.false_eq_true, if_false]
    obtain ⟨left, decides, here, others, distinct⟩ := perform_answered touched sound.distinct performed
    rw [decided] at decides
    cases decides
    exact ⟨s', performed, ⟨whole, distinct⟩, interval'.trans interval, here, others⟩

/-- The same for a store with room for its next sweep, which is one way to be settled. -/
theorem perform_decided {s : Store α} {now next : Moment} (sound : s.Sound)
    (room : later now s.sweepInterval = .ok next) {c : Call} {key : String} (touched : c.key? = some key)
    {e : Option (Entry α)} {reply : c.Reply} (decided : c.onEntry now (s.live? now key) = .ok (e, reply)) :
    ∃ s', s.perform now c = (s', .ok (.ok reply)) ∧ s'.Sound ∧ s'.sweepInterval = s.sweepInterval ∧
      s'.live? now key = e.filter (·.isLive now) ∧ ∀ k, k ≠ key → s'.live? now k = s.live? now k :=
  perform_settled sound (.inr ⟨next, room⟩) touched decided

omit [TokenNumber α] in
/-- Settling changes nothing but the entries and when the next sweep is due. -/
theorem settled_frame {s s' : Store α} {now : Moment} {key : String} (settled : s.settled now key = .ok s') :
    s.Alike s' := by
  obtain ⟨next, -, rfl⟩ | ⟨-, ⟨rfl, -⟩ | ⟨rfl, -⟩⟩ := settled_cases settled <;> exact ⟨rfl, rfl⟩

/-- A store that is whole after a call was so before, and has answered the call: a breakdown breaks the store, and a
broken store refuses and stays broken. -/
theorem answered_of_whole {s : Store α} {now : Moment} {c : Call} (whole : (s.perform now c).1.isBroken = false) :
    s.isBroken = false ∧ ∃ s' reply, s.perform now c = (s', .ok (.ok reply)) ∧ s.Alike s' := by
  cases touched : c.key? with
  | none =>
    cases c <;> cases touched
    exact ⟨whole, s, "PONG", rfl, rfl, rfl⟩
  | some key =>
    rw [perform_at s now touched] at whole ⊢
    unfold change at whole ⊢
    cases broken : s.isBroken with
    | true =>
      simp only [broken, if_true] at whole
      cases whole
    | false =>
      simp only [broken, Bool.false_eq_true, if_false] at whole ⊢
      cases settled : s.settled now key with
      | error why =>
        simp only [settled, bind, Except.bind] at whole
        cases whole
      | ok base =>
        simp only [settled, bind, Except.bind] at whole ⊢
        cases answered : base.answer now c with
        | error why =>
          simp only [answered] at whole
          cases whole
        | ok result =>
          obtain ⟨unbroken, interval⟩ := settled_frame settled
          obtain ⟨unbroken', interval'⟩ := answer_frame answered
          exact ⟨trivial, result.1, result.2, rfl, unbroken'.trans unbroken, interval'.trans interval⟩

/-- The same for a store that is known to be whole after the call instead of having room. Then the call was answered,
and the entry decides with which reply. -/
theorem perform_decided_of_whole {s : Store α} {now : Moment} (sound : s.Sound)
    {c : Call} {key : String}
    (fine : (∃ next, later now s.sweepInterval = .ok next) ∨ (s.perform now c).1.isBroken = false)
    (touched : c.key? = some key) {e : Option (Entry α)} {reply : c.Reply}
    (decided : c.onEntry now (s.live? now key) = .ok (e, reply)) :
    ∃ s', s.perform now c = (s', .ok (.ok reply)) ∧ s'.Sound ∧ s'.sweepInterval = s.sweepInterval ∧
      s'.live? now key = e.filter (·.isLive now) ∧ ∀ k, k ≠ key → s'.live? now k = s.live? now k := by
  rcases fine with ⟨next, room⟩ | whole
  · exact perform_decided sound room touched decided
  · obtain ⟨-, s', reply', performed, unbroken, interval⟩ := answered_of_whole whole
    obtain ⟨e', decided', here, others, distinct⟩ := perform_answered touched sound.distinct performed
    rw [decided] at decided'
    cases decided'
    exact ⟨s', performed, ⟨unbroken.trans sound.unbroken, distinct⟩, interval, here, others⟩

/-- Where that decision breaks down, so does the store. It can be settled, so the breakdown is that of the decision. -/
theorem perform_undecided {s : Store α} {now next : Moment} (sound : s.Sound)
    (room : later now s.sweepInterval = .ok next) {c : Call} {key : String} (touched : c.key? = some key)
    {why : Breakdown} (decided : c.onEntry now (s.live? now key) = .error why) :
    (s.perform now c).2 = .error why := by
  obtain ⟨base, settled, -, -⟩ := Settles.settled (.inr ⟨next, room⟩) key
  obtain ⟨-, shown, -⟩ := settled_ok sound.distinct settled
  have replied := answer_reply base now touched
  rw [shown, decided] at replied
  rw [perform_at s now touched]
  cases answered : base.answer now c with
  | ok result => rw [answered] at replied; cases replied
  | error why' =>
    rw [answered] at replied
    injection replied with same
    simp only [change, sound.unbroken, settled, bind, Except.bind, answered, Bool.false_eq_true, if_false, same]

omit [TokenNumber α] in
/-- A sound store with room for its next sweep can be purged, and shows what it showed. -/
theorem purge_ok {s : Store α} {now next : Moment} (sound : s.Sound)
    (room : later now s.sweepInterval = .ok next) :
    ∃ s' removed, s.purge now = (s', .ok (.ok removed)) ∧ s'.Sound ∧ s'.sweepInterval = s.sweepInterval ∧
      ∀ key, s'.live? now key = s.live? now key := by
  obtain ⟨shown, distinct⟩ := purge_live s now sound.distinct
  have purged : s.purge now = ({ s.swept now with nextSweep := next },
      .ok (.ok (s.entries.size - (s.swept now).entries.size))) := by
    simp only [purge, change, sound.unbroken, room, bind, Except.bind, pure, Except.pure, Bool.false_eq_true, if_false]
  rw [purged] at shown distinct
  exact ⟨_, _, purged, ⟨sound.unbroken, distinct⟩, rfl, shown⟩

omit [TokenNumber α] in
/-- A store that is whole after a purge was so before, as a broken store stays broken. -/
theorem whole_of_purged {s : Store α} {now : Moment} (whole : (s.purge now).1.isBroken = false) : s.isBroken = false := by
  cases broken : s.isBroken with
  | false => rfl
  | true =>
    simp only [purge, change, broken, if_true] at whole
    cases whole

/-- A store that is asked a question. -/
def serve (s : Store α) (now : Moment) : Question → Store α × Sight
  | .call c => ((s.perform now c).1, .ofOutcome (.replied c) (s.perform now c).2)
  | .purge => ((s.purge now).1, .ofOutcome (fun reply => .purged (reply.map fun _ => ())) (s.purge now).2)
  | .size => (s, .counted (s.size now))

/-- A sound store that does not break down over a purge is swept and has room for the next sweep. That room is all that
a purge can lack. -/
theorem swept_of_sound {s : Store α} (sound : s.Sound) {now : Moment}
    (fine : (s.serve now .purge).2.isBreakdown = false) :
    ∃ next, later now s.sweepInterval = .ok next ∧ (s.serve now .purge).1 = { s.swept now with nextSweep := next } := by
  simp only [serve, purge, change, sound.unbroken, Bool.false_eq_true, if_false] at fine ⊢
  cases reached : later now s.sweepInterval with
  | error why => simp [reached, bind, Except.bind, Sight.ofOutcome, Sight.isBreakdown] at fine
  | ok next => exact ⟨next, rfl, rfl⟩

/-- A sound store that does not break down over a call answers it, for only a broken store refuses. -/
theorem answered_of_sound {s : Store α} (sound : s.Sound) {now : Moment} {c : Call}
    (fine : (s.serve now (.call c)).2.isBreakdown = false) : ∃ reply, (s.perform now c).2 = .ok (.ok reply) := by
  simp only [serve] at fine
  cases touched : c.key? with
  | none =>
    cases c <;> cases touched
    exact ⟨"PONG", rfl⟩
  | some key =>
    rw [perform_at s now touched] at fine ⊢
    simp only [change, sound.unbroken, Bool.false_eq_true, if_false] at fine ⊢
    split at fine
    · exact ⟨_, rfl⟩
    · cases fine

/-- A store that has answered a call at a key was settled for it and is not broken. Every other way through the call
ends without an answer. -/
theorem answer_of_performed {s s' : Store α} {now : Moment} {c : Call} {key : String} {reply : c.Reply}
    (touched : c.key? = some key) (performed : s.perform now c = (s', .ok (.ok reply))) :
    s'.isBroken = false ∧ ∃ base, s.settled now key = .ok base ∧ base.answer now c = .ok (s', reply) := by
  rw [perform_at s now touched] at performed
  unfold change at performed
  split at performed
  · cases performed
  · rename_i unbroken
    cases settled : s.settled now key with
    | error why => simp [settled, bind, Except.bind] at performed
    | ok base =>
      simp only [settled, bind, Except.bind] at performed
      split at performed
      · rename_i answered
        cases performed
        refine ⟨?_, base, rfl, answered⟩
        rw [(answer_frame answered).1, (settled_frame settled).1]
        exact Bool.eq_false_iff.mpr unbroken
      · cases performed

/-- A sound store that does not break down over a question stays sound. Purges and calls keep keys apart, and only a
breakdown breaks the store. -/
theorem serve_sound {s : Store α} (sound : s.Sound) {now : Moment} {q : Question}
    (fine : (s.serve now q).2.isBreakdown = false) : (s.serve now q).1.Sound := by
  cases q with
  | size => exact sound
  | purge =>
    obtain ⟨next, -, same⟩ := swept_of_sound sound fine
    rw [same]
    exact ⟨sound.unbroken, Table.distinct_keep _ sound.distinct _⟩
  | call c =>
    obtain ⟨reply, answered⟩ := answered_of_sound sound fine
    have performed : s.perform now c = ((s.perform now c).1, .ok (.ok reply)) := Prod.ext rfl answered
    cases touched : c.key? with
    | none =>
      cases c <;> cases touched
      exact sound
    | some key =>
      obtain ⟨_, -, -, -, distinct⟩ := perform_answered touched sound.distinct performed
      exact { unbroken := (answer_of_performed touched performed).1, distinct := distinct }

/-- A store that has answered a call at a key can be settled again at the same moment, because it was settled to answer. -/
theorem settles_of_answered {s s' : Store α} {now : Moment} {c : Call} {key : String} {reply : c.Reply}
    (touched : c.key? = some key) (performed : s.perform now c = (s', .ok (.ok reply))) : s'.Settles now := by
  obtain ⟨-, base, settled, answered⟩ := answer_of_performed touched performed
  have again : base.Settles now := settled_settles settled
  rw [answer_entries answered]
  exact again

/-- A sound store that can be settled still can after a question that does not break it. A purge and a call at a key
have found room themselves, and the other questions leave the store as it was. -/
theorem serve_settles {s : Store α} (sound : s.Sound) {now : Moment} (settles : s.Settles now) {q : Question}
    (fine : (s.serve now q).2.isBreakdown = false) : (s.serve now q).1.Settles now := by
  cases q with
  | size => exact settles
  | purge =>
    obtain ⟨next, reached, same⟩ := swept_of_sound sound fine
    rw [same]
    exact .inr ⟨next, reached⟩
  | call c =>
    obtain ⟨reply, answered⟩ := answered_of_sound sound fine
    cases touched : c.key? with
    | none =>
      cases c <;> cases touched
      exact settles
    | some key => exact settles_of_answered touched (Prod.ext rfl answered)

end Store

/-- What a keeper shows when a question does not make it break down: the sight of that question, and then its history
from the state that the question left. -/
theorem history_ask {σ : Type} {serve : σ → Moment → Question → σ × Sight} {s : σ} {now : Moment} {q : Question}
    {rest : List Event} (fine : (serve s now q).2.isBreakdown = false) :
    history serve s now (.ask q :: rest) = (now, (serve s now q).2) :: history serve (serve s now q).1 now rest := by
  simp [history, fine]

/-- Where nothing breaks down, the first question does not and neither does anything after it, since the history goes on
behind that question. -/
theorem history_whole {σ : Type} {serve : σ → Moment → Question → σ × Sight} {s : σ} {now : Moment} {q : Question}
    {rest : List Event} (whole : ∀ seen ∈ history serve s now (.ask q :: rest), seen.2.isBreakdown = false) :
    (serve s now q).2.isBreakdown = false ∧
      ∀ seen ∈ history serve (serve s now q).1 now rest, seen.2.isBreakdown = false := by
  have fine : (serve s now q).2.isBreakdown = false := whole (now, _) List.mem_cons_self
  rw [history_ask fine] at whole
  exact ⟨fine, fun seen member => whole seen (List.mem_cons_of_mem _ member)⟩

end Turnstile
