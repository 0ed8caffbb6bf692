import Turnstile.Store
import Turnstile.Proofs.Table

/-!
The store as its callers see it.

What a caller can see of a store at some moment is the live entry at each key. `Call.onEntry` says what a call
does to the one entry at its key, with no table, no sweep and no expired entries in it. The main statement is
that a store which answers a call answers as `onEntry` does, changes the live entry at the call's key
accordingly, and leaves the live entries at all other keys alone. Sweeps and the removal of expired entries
change nothing that can be seen.
-/

namespace Turnstile

variable {α : Type}

namespace Entry

/-- The text of an entry that holds one. -/
def text? (e : Entry α) : Option String :=
  match e.content with
  | .text value => some value
  | .bucket _ => none

/-- The bucket of an entry that holds one. -/
def bucket? (e : Entry α) : Option (Bucket α) :=
  match e.content with
  | .text _ => none
  | .bucket b => some b

end Entry

/-- What a call does to the entry at its key, and its answer. -/
def Call.onEntry [TokenNumber α] (now : Moment) :
    (c : Call) → Option (Entry α) → Except Breakdown (Option (Entry α) × c.Reply)
  | .get _, e => .ok (e, e.bind Entry.text?)
  | .set _ value life, _ => do return (some ⟨.text value, ← Store.later now life⟩, ())
  | .setIfAbsent _ value life, e =>
    if e.isSome then .ok (e, false)
    else do return (some ⟨.text value, ← Store.later now life⟩, true)
  | .compareAndSet _ expected value life, e =>
    if e.bind Entry.text? = some expected then do return (some ⟨.text value, ← Store.later now life⟩, true)
    else .ok (e, false)
  | .delete _, e => .ok (none, e.isSome)
  | .deleteIfEquals _ expected, e =>
    if e.bind Entry.text? = some expected then .ok (none, true) else .ok (e, false)
  | .take _ limit cost, e => do
    let (bucket, grant) := ((e.bind Entry.bucket?).getD (.full limit now)).take limit cost now
    let grant ← grant
    return (some ⟨.bucket bucket, ← Store.later now (← limit.keep)⟩, grant)
  | .ping, e => .ok (e, "PONG")

namespace Call

variable {now : Moment} {key value expected : String} {life : Span} {before after : Option (Entry α)}

/-- A text that is written to an entry expires after its life. The only other end is that the moment of expiry cannot be
told, and that is no answer. -/
theorem written_ok {ρ : Type} {reply reply' : ρ}
    (written : (do return (some ⟨.text value, ← Store.later now life⟩, reply) :
      Except Breakdown (Option (Entry α) × ρ)) = .ok (after, reply')) :
    reply' = reply ∧ ∃ expires, Store.later now life = .ok expires ∧ after = some ⟨.text value, expires⟩ := by
  cases reached : Store.later now life with
  | error why => rw [reached] at written; cases written
  | ok expires =>
    rw [reached] at written
    injection written with same
    obtain ⟨rfl, rfl⟩ := Prod.mk.inj same
    exact ⟨rfl, expires, rfl, rfl⟩

variable [TokenNumber α]

/-- A look answers with the text of the entry, if it has one, and leaves the entry as it is. -/
theorem onEntry_get {reply : Option String} (decided : onEntry now (.get key) before = .ok (after, reply)) :
    reply = before.bind Entry.text? ∧ after = before := by
  cases decided
  exact ⟨rfl, rfl⟩

/-- A text is set where nothing is: whoever is told so found no entry there, and the text is now the entry. -/
theorem onEntry_set_true (decided : onEntry now (.setIfAbsent key value life) before = .ok (after, true)) :
    before = none ∧ ∃ expires, Store.later now life = .ok expires ∧ after = some ⟨.text value, expires⟩ := by
  cases before with
  | none => exact ⟨rfl, (written_ok decided).2⟩
  | some e => cases decided

/-- Whoever is told that nothing was set found an entry there, and that has stayed as it was. -/
theorem onEntry_set_false (decided : onEntry now (.setIfAbsent key value life) before = .ok (after, false)) :
    before.isSome = true ∧ after = before := by
  cases before with
  | none => cases (written_ok decided).1
  | some e => cases decided; exact ⟨rfl, rfl⟩

/-- A text is replaced where the expected one is: whoever is told so found that text, and the new one is now the entry. -/
theorem onEntry_replace_true
    (decided : onEntry now (.compareAndSet key expected value life) before = .ok (after, true)) :
    before.bind Entry.text? = some expected ∧
      ∃ expires, Store.later now life = .ok expires ∧ after = some ⟨.text value, expires⟩ := by
  simp only [onEntry] at decided
  by_cases met : before.bind Entry.text? = some expected
  · rw [if_pos met] at decided
    exact ⟨met, (written_ok decided).2⟩
  · rw [if_neg met] at decided
    cases decided

/-- Whoever is told that nothing was replaced found another text or none, and the entry has stayed as it was. -/
theorem onEntry_replace_false
    (decided : onEntry now (.compareAndSet key expected value life) before = .ok (after, false)) :
    before.bind Entry.text? ≠ some expected ∧ after = before := by
  simp only [onEntry] at decided
  by_cases met : before.bind Entry.text? = some expected
  · rw [if_pos met] at decided
    cases (written_ok decided).1
  · rw [if_neg met] at decided
    cases decided
    exact ⟨met, rfl⟩

/-- An entry is removed where the expected text is: whoever is told so found that text, and nothing is left. -/
theorem onEntry_remove_true (decided : onEntry now (.deleteIfEquals key expected) before = .ok (after, true)) :
    before.bind Entry.text? = some expected ∧ after = none := by
  simp only [onEntry] at decided
  by_cases met : before.bind Entry.text? = some expected
  · rw [if_pos met] at decided
    cases decided
    exact ⟨met, rfl⟩
  · rw [if_neg met] at decided
    cases decided

/-- Whoever is told that nothing was removed found another text or none, and the entry has stayed as it was. -/
theorem onEntry_remove_false (decided : onEntry now (.deleteIfEquals key expected) before = .ok (after, false)) :
    before.bind Entry.text? ≠ some expected ∧ after = before := by
  simp only [onEntry] at decided
  by_cases met : before.bind Entry.text? = some expected
  · rw [if_pos met] at decided
    cases decided
  · rw [if_neg met] at decided
    cases decided
    exact ⟨met, rfl⟩

/-- A bucket is asked, a full one where there is none, and is kept as long as its limit says. All three parts have to go
well, as each of them can break the call down. -/
theorem onEntry_take {limit : Limit} {cost : UInt32} {grant : Grant}
    (decided : onEntry now (.take key limit cost) before = .ok (after, grant)) :
    ∃ bucket span expires,
      ((before.bind Entry.bucket?).getD (.full limit now)).take limit cost now = (bucket, .ok grant) ∧
        limit.keep = .ok span ∧ Store.later now span = .ok expires ∧ after = some ⟨.bucket bucket, expires⟩ := by
  simp only [onEntry] at decided
  rcases taken : ((before.bind Entry.bucket?).getD (.full limit now)).take limit cost now with ⟨bucket, _ | grant'⟩
  · rw [taken] at decided; cases decided
  · rw [taken] at decided
    cases kept : limit.keep with
    | error why => rw [kept] at decided; cases decided
    | ok span =>
      cases reached : Store.later now span with
      | error why => simp [kept, reached, bind, Except.bind] at decided
      | ok expires =>
        simp only [kept, reached, bind, Except.bind, pure, Except.pure] at decided
        cases decided
        exact ⟨bucket, span, expires, rfl, rfl, reached, rfl⟩

/-- The text that a call writes if it comes to that, and the life that it gives it. -/
def writes? : Call → Option (String × Span)
  | .set _ value life | .setIfAbsent _ value life | .compareAndSet _ _ value life => some (value, life)
  | _ => none

/-- What a call can leave at its key, of what was there before. -/
inductive Leaves (now : Moment) (before : Option (Entry α)) : Call → Option (Entry α) → Prop
  | kept (c : Call) : Leaves now before c before
  | nothing (c : Call) : Leaves now before c none
  | written (c : Call) (value : String) (life : Span) (expires : Moment) (writes : c.writes? = some (value, life))
      (reached : Store.later now life = .ok expires) : Leaves now before c (some ⟨.text value, expires⟩)
  | taken (key : String) (limit : Limit) (cost : UInt32) (grant : Grant) (bucket : Bucket α) (span : Span)
      (expires : Moment)
      (took : ((before.bind Entry.bucket?).getD (.full limit now)).take limit cost now = (bucket, .ok grant))
      (lasts : limit.keep = .ok span) (reached : Store.later now span = .ok expires) :
      Leaves now before (.take key limit cost) (some ⟨.bucket bucket, expires⟩)

/-- A call leaves nothing else. Whoever wants to know of every entry that it has some property goes through these four
cases, and not through the calls. -/
theorem leaves_of_onEntry {c : Call} {reply : c.Reply} (decided : c.onEntry now before = .ok (after, reply)) :
    c.Leaves now before after := by
  cases c with
  | get key =>
    rw [(onEntry_get decided).2]
    exact .kept _
  | set key value life =>
    obtain ⟨-, expires, reached, rfl⟩ := written_ok decided
    exact .written _ value life expires rfl reached
  | setIfAbsent key value life =>
    cases reply with
    | true =>
      obtain ⟨-, expires, reached, rfl⟩ := onEntry_set_true decided
      exact .written _ value life expires rfl reached
    | false =>
      rw [(onEntry_set_false decided).2]
      exact .kept _
  | compareAndSet key expected value life =>
    cases reply with
    | true =>
      obtain ⟨-, expires, reached, rfl⟩ := onEntry_replace_true decided
      exact .written _ value life expires rfl reached
    | false =>
      rw [(onEntry_replace_false decided).2]
      exact .kept _
  | delete key =>
    cases decided
    exact .nothing _
  | deleteIfEquals key expected =>
    cases reply with
    | true =>
      rw [(onEntry_remove_true decided).2]
      exact .nothing _
    | false =>
      rw [(onEntry_remove_false decided).2]
      exact .kept _
  | take key limit cost =>
    obtain ⟨bucket, span, expires, took, lasts, reached, rfl⟩ := onEntry_take decided
    exact .taken key limit cost reply bucket span expires took lasts reached
  | ping =>
    cases decided
    exact .kept _

end Call

namespace Store

/-- The moment that is later by a span is that many nanoseconds ahead, wherever there is such a moment. -/
theorem later_nanos {m later : Moment} {s : Span} (reached : Store.later m s = .ok later) :
    later.nanos = m.nanos + s.nanos := by
  unfold Store.later Moment.after? at reached
  by_cases inside : m.nanos + s.nanos < Moment.secondsLimit * nanosPerSecond
  · rw [if_pos inside] at reached
    injection reached with same
    rw [← same]
  · rw [if_neg inside] at reached
    cases reached

/-- The entries of a store with the one at a key replaced, as they show. -/
def ShowsAt (s s' : Store α) (key : String) (e : Option (Entry α)) : Prop :=
  ∀ k, s'.entries.find? k = if k = key then e else s.entries.find? k

/-- A store shows itself with the entry at a key replaced by what it shows there. -/
theorem showsAt_self (s : Store α) (key : String) : ShowsAt s s key (s.entries.find? key) := by
  intro k
  by_cases same : k = key <;> simp [same]

/-- Putting an entry shows that entry at its key and changes nothing elsewhere. -/
theorem showsAt_put (s : Store α) (key : String) (e : Entry α) : ShowsAt s (s.put key e) key (some e) :=
  fun k => Table.find?_insert s.entries key k e

/-- Removing an entry shows nothing at its key and changes nothing elsewhere. -/
theorem showsAt_remove (s : Store α) (key : String) : ShowsAt s (s.remove key) key none :=
  fun k => Table.find?_erase s.entries key k

/-- The text that a store has at a key is that of the entry which shows there. -/
theorem textAt?_eq (s : Store α) (key : String) :
    s.textAt? key = (s.entries.find? key).bind Entry.text? := by
  unfold textAt?
  rcases s.entries.find? key with _ | ⟨content, expires⟩
  · rfl
  · cases content <;> rfl

/-- The bucket that a store has at a key is that of the entry which shows there, and a full one if that entry has none. -/
theorem bucketAt_eq [TokenNumber α] (s : Store α) (now : Moment) (key : String) (limit : Limit) :
    s.bucketAt now key limit = ((s.entries.find? key).bind Entry.bucket?).getD (.full limit now) := by
  unfold bucketAt
  rcases s.entries.find? key with _ | ⟨content, expires⟩
  · rfl
  · cases content <;> rfl

/-- A text that is written expires after its life, and the store has it at its key. The answer that goes with the write
is passed on. -/
theorem putText_ok {ρ : Type} {s s' : Store α} {now : Moment} {key value : String} {life : Span} {r r' : ρ}
    (written : (do return (← s.putText now key value life, r) : Except Breakdown (Store α × ρ)) = .ok (s', r')) :
    ∃ expires, later now life = .ok expires ∧ s' = s.put key ⟨.text value, expires⟩ ∧ r' = r := by
  unfold putText at written
  cases reached : later now life with
  | error why => rw [reached] at written; cases written
  | ok expires =>
    rw [reached] at written
    injection written with same
    obtain ⟨rfl, rfl⟩ := Prod.mk.inj same
    exact ⟨expires, rfl, rfl, rfl⟩

/-- A settled store answers a call as the entry at the call's key decides, and shows the outcome there. The calls are
checked one by one: each reads one key, and puts or removes at that key at most. -/
theorem answer_ok [TokenNumber α] {s s' : Store α} {now : Moment} {c : Call} {reply : c.Reply} {key : String}
    (touched : c.key? = some key) (distinct : s.entries.Distinct)
    (answered : s.answer now c = .ok (s', reply)) :
    ∃ e, c.onEntry now (s.entries.find? key) = .ok (e, reply) ∧ ShowsAt s s' key e ∧
      s'.entries.Distinct := by
  have untouched : ShowsAt s s key (s.entries.find? key) ∧ s.entries.Distinct := ⟨showsAt_self s key, distinct⟩
  have put (e : Entry α) : ShowsAt s (s.put key e) key (some e) ∧ (s.put key e).entries.Distinct :=
    ⟨showsAt_put s key e, Table.distinct_insert _ distinct _ _⟩
  have removed : ShowsAt s (s.remove key) key none ∧ (s.remove key).entries.Distinct :=
    ⟨showsAt_remove s key, Table.distinct_erase _ distinct _⟩
  cases c with
  | ping => cases touched
  | get _ =>
    cases touched
    cases answered
    exact ⟨_, by simp only [Call.onEntry, textAt?_eq], untouched⟩
  | set _ value life =>
    cases touched
    obtain ⟨expires, reached, rfl, rfl⟩ := putText_ok answered
    exact ⟨some ⟨.text value, expires⟩, by simp only [Call.onEntry, reached]; rfl, put _⟩
  | setIfAbsent _ value life =>
    cases touched
    simp only [answer] at answered
    by_cases present : (s.entries.find? key).isSome = true
    · rw [if_pos present] at answered
      cases answered
      exact ⟨_, by simp only [Call.onEntry, if_pos present], untouched⟩
    · rw [if_neg present] at answered
      obtain ⟨expires, reached, rfl, rfl⟩ := putText_ok answered
      exact ⟨some ⟨.text value, expires⟩, by simp only [Call.onEntry, if_neg present, reached]; rfl, put _⟩
  | compareAndSet _ expected value life =>
    cases touched
    simp only [answer, textAt?_eq] at answered
    by_cases met : (s.entries.find? key).bind Entry.text? = some expected
    · rw [if_pos met] at answered
      obtain ⟨expires, reached, rfl, rfl⟩ := putText_ok answered
      exact ⟨some ⟨.text value, expires⟩, by simp only [Call.onEntry, if_pos met, reached]; rfl, put _⟩
    · rw [if_neg met] at answered
      cases answered
      exact ⟨_, by simp only [Call.onEntry, if_neg met], untouched⟩
  | delete _ =>
    cases touched
    cases answered
    exact ⟨_, rfl, removed⟩
  | deleteIfEquals _ expected =>
    cases touched
    simp only [answer, textAt?_eq] at answered
    by_cases met : (s.entries.find? key).bind Entry.text? = some expected
    · rw [if_pos met] at answered
      cases answered
      exact ⟨_, by simp only [Call.onEntry, if_pos met], removed⟩
    · rw [if_neg met] at answered
      cases answered
      exact ⟨_, by simp only [Call.onEntry, if_neg met], untouched⟩
  | take _ limit cost =>
    cases touched
    simp only [answer, takeTokens, bucketAt_eq] at answered
    simp only [Call.onEntry]
    rcases taken : (((s.entries.find? key).bind Entry.bucket?).getD (.full limit now)).take limit cost now
      with ⟨bucket, _ | grant⟩
    · rw [taken] at answered; cases answered
    · rw [taken] at answered
      cases kept : limit.keep with
      | error why => rw [kept] at answered; cases answered
      | ok span =>
        cases reached : later now span with
        | error why => simp [kept, reached, bind, Except.bind] at answered
        | ok expires =>
          simp only [kept, reached, bind, Except.bind, pure, Except.pure] at answered ⊢
          cases answered
          exact ⟨_, rfl, put _⟩

/-! What settling leaves to be seen. -/

/-- What shows as live has not expired yet. -/
theorem live?_of_live {s : Store α} {now : Moment} {key : String} {e : Entry α}
    (live : s.live? now key = some e) : now < e.expires := by
  unfold live? at live
  have passed : e.isLive now = true := (Option.filter_eq_some_iff.mp live).2
  exact of_decide_eq_true passed

/-- What is live later is live now, so nothing is lost by first asking who is live now. -/
theorem filter_live (e : Option (Entry α)) {now later : Moment} (ahead : now ≤ later) :
    (e.filter (·.isLive now)).filter (·.isLive later) = e.filter (·.isLive later) := by
  rcases e with _ | e
  · rfl
  · by_cases live : e.isLive later = true
    · have before : e.isLive now = true := by
        have inside : later < e.expires := of_decide_eq_true live
        exact decide_eq_true (Nat.lt_of_le_of_lt ahead inside)
      simp [Option.filter, live, before]
    · by_cases before : e.isLive now = true <;> simp [Option.filter, live, before]

/-- An entry that is live now stays live until it expires, and nothing else comes to light later, as long as no call
changes the entries. -/
theorem live?_later (s : Store α) {now later : Moment} (ahead : now ≤ later) (key : String) :
    s.live? later key = (s.live? now key).filter (·.isLive later) :=
  (filter_live (s.entries.find? key) ahead).symm

/-- A sweep shows exactly the live entries, since keys are apart and no expired entry hides another one of its key. -/
theorem find?_swept (s : Store α) (now : Moment) (distinct : s.entries.Distinct) (key : String) :
    (s.swept now).entries.find? key = s.live? now key :=
  Table.find?_keep s.entries _ distinct key

/-- A sweep leaves the live entries live. What it drops had expired and did not show as live. -/
theorem live?_swept (s : Store α) (now : Moment) (distinct : s.entries.Distinct) (key : String) :
    (s.swept now).live? now key = s.live? now key := by
  have twice : s.live? now key = (s.live? now key).filter (·.isLive now) := live?_later s (Nat.le_refl _) key
  rw [twice, ← find?_swept s now distinct key]
  rfl

/-- Settling sweeps the store if that is due. Else it removes at most what is no longer shown at the key: an entry that
has expired, or nothing. -/
theorem settled_cases {s s' : Store α} {now : Moment} {key : String} (settled : s.settled now key = .ok s') :
    (∃ next, later now s.sweepInterval = .ok next ∧ s' = { s.swept now with nextSweep := next }) ∨
      now < s.nextSweep ∧
        (s' = s ∧ s.entries.find? key = s.live? now key ∨ s' = s.remove key ∧ s.live? now key = none) := by
  unfold Store.settled at settled
  by_cases due : s.nextSweep ≤ now
  · rw [if_pos due] at settled
    cases reached : later now s.sweepInterval with
    | error why => rw [reached] at settled; cases settled
    | ok next =>
      rw [reached] at settled
      cases settled
      exact .inl ⟨next, rfl, rfl⟩
  · rw [if_neg due] at settled
    refine .inr ⟨Nat.lt_of_not_le due, ?_⟩
    cases found : s.entries.find? key with
    | none =>
      rw [found] at settled
      cases settled
      exact .inl ⟨rfl, by simp [live?, found]⟩
    | some e =>
      simp only [found] at settled
      by_cases live : e.isLive now = true
      · rw [if_pos live] at settled
        cases settled
        exact .inl ⟨rfl, by simp [live?, found, Option.filter, live]⟩
      · rw [if_neg live] at settled
        cases settled
        exact .inr ⟨rfl, by simp [live?, found, Option.filter, live]⟩

/-- Settling a store for a key leaves every live entry as it was, and nothing but the live entry at the key. So what
follows may read the entry without asking whether it has expired. -/
theorem settled_ok {s s' : Store α} {now : Moment} {key : String} (distinct : s.entries.Distinct)
    (settled : s.settled now key = .ok s') :
    (∀ k, s'.live? now k = s.live? now k) ∧ s'.entries.find? key = s.live? now key ∧
      s'.entries.Distinct := by
  obtain ⟨next, -, rfl⟩ | ⟨-, ⟨rfl, same⟩ | ⟨rfl, gone⟩⟩ := settled_cases settled
  · exact ⟨live?_swept s now distinct, find?_swept s now distinct key, Table.distinct_keep _ distinct _⟩
  · exact ⟨fun _ => rfl, same, distinct⟩
  · refine ⟨fun k => ?_, ?_, Table.distinct_erase _ distinct _⟩
    · by_cases here : k = key
      · subst here
        rw [gone, live?, showsAt_remove, if_pos rfl]
        rfl
      · rw [live?, showsAt_remove, if_neg here]
        rfl
    · rw [showsAt_remove, if_pos rfl, gone]

/-- Removing every expired entry cannot be seen. It is a sweep that does not wait until one is due, and a store that
cannot tell its next sweep is left as it was. -/
theorem purge_live (s : Store α) (now : Moment) (distinct : s.entries.Distinct) :
    (∀ k, (s.purge now).1.live? now k = s.live? now k) ∧ (s.purge now).1.entries.Distinct := by
  unfold purge change
  split
  · exact ⟨fun _ => rfl, distinct⟩
  · simp only
    cases reached : later now s.sweepInterval with
    | error why => exact ⟨fun _ => rfl, distinct⟩
    | ok next => exact ⟨live?_swept s now distinct, Table.distinct_keep _ distinct _⟩

/-! What a call leaves to be seen. -/

variable [TokenNumber α]

/-- A call at a key settles the store there and answers, unless the store is broken. All calls but the one for the store
itself have this form. -/
theorem perform_at (s : Store α) (now : Moment) {c : Call} {key : String} (touched : c.key? = some key) :
    s.perform now c = s.change fun s => (do (← s.settled now key).answer now c) := by
  cases c <;> cases touched <;> rfl

/-- A store that answers a call answers as the live entry at the call's key decides. It shows the outcome at that key,
as long as the outcome does not expire at once, and all other keys as they were. Settling has left just that live entry
to be answered from. -/
theorem perform_answered {s s' : Store α} {now : Moment} {c : Call} {reply : c.Reply} {key : String}
    (touched : c.key? = some key) (distinct : s.entries.Distinct)
    (performed : s.perform now c = (s', .ok (.ok reply))) :
    ∃ e, c.onEntry now (s.live? now key) = .ok (e, reply) ∧ s'.live? now key = e.filter (·.isLive now) ∧
      (∀ k, k ≠ key → s'.live? now k = s.live? now k) ∧ s'.entries.Distinct := by
  rw [perform_at s now touched] at performed
  unfold change at performed
  cases broken : s.isBroken with
  | true => rw [broken] at performed; cases performed
  | false =>
    simp only [broken, Bool.false_eq_true, if_false] at performed
    cases settled : s.settled now key with
    | error why => rw [settled] at performed; cases performed
    | ok next =>
      obtain ⟨same, shown, distinct⟩ := settled_ok distinct settled
      simp only [settled, bind, Except.bind] at performed
      cases answered : next.answer now c with
      | error why => rw [answered] at performed; cases performed
      | ok result =>
        obtain ⟨last, answer⟩ := result
        rw [answered] at performed
        cases performed
        obtain ⟨e, decided, shows, distinct⟩ := answer_ok touched distinct answered
        rw [shown] at decided
        refine ⟨e, decided, ?_, ?_, distinct⟩
        · simp only [live?, shows key, if_true]
        · intro k other
          rw [← same k]
          simp only [live?, shows k, if_neg other]

/-- A store that refuses a call, or breaks down over it, shows what it showed before, for its entries are replaced only
when the answer is there. -/
theorem perform_unanswered {s s' : Store α} {now : Moment} {c : Call}
    {outcome : Except Breakdown (Except Failure c.Reply)} (performed : s.perform now c = (s', outcome))
    (unanswered : ∀ reply, outcome ≠ .ok (.ok reply)) :
    s'.entries = s.entries := by
  cases touched : c.key? with
  | none =>
    cases c <;> cases touched
    cases performed
    exact absurd rfl (unanswered _)
  | some key =>
    rw [perform_at s now touched] at performed
    unfold change at performed
    split at performed
    · cases performed; rfl
    · split at performed
      · cases performed
        exact absurd rfl (unanswered _)
      · cases performed; rfl

/-- A call fails only where the store is broken, and then with the one refusal that tells so. -/
theorem perform_failure {s : Store α} {now : Moment} {c : Call} {failure : Failure}
    (failed : (s.perform now c).2 = .ok (.error failure)) : failure = refusal := by
  cases touched : c.key? with
  | none =>
    cases c <;> cases touched
    cases failed
  | some key =>
    rw [perform_at s now touched] at failed
    unfold change at failed
    split at failed
    · cases failed
      rfl
    · split at failed <;> cases failed

/-- A call shows nothing new at a key that it does not touch, whatever comes of it: an answer changes its own key, and
anything else changes none. -/
theorem perform_elsewhere {s : Store α} (now : Moment) {c : Call} {key : String} (distinct : s.entries.Distinct)
    (apart : c.key? ≠ some key) :
    (s.perform now c).1.entries.Distinct ∧ (s.perform now c).1.live? now key = s.live? now key := by
  by_cases answered : ∃ reply, (s.perform now c).2 = .ok (.ok reply)
  · obtain ⟨reply, answered⟩ := answered
    cases touched : c.key? with
    | none =>
      cases c <;> cases touched
      exact ⟨distinct, rfl⟩
    | some other =>
      obtain ⟨-, -, -, others, distinct'⟩ := perform_answered touched distinct (Prod.ext rfl answered)
      exact ⟨distinct', others key fun same => apart (same ▸ touched)⟩
  · have same : (s.perform now c).1.entries = s.entries :=
      perform_unanswered rfl fun reply answer => answered ⟨reply, answer⟩
    exact ⟨same ▸ distinct, by unfold live?; rw [same]⟩

end Store

end Turnstile
