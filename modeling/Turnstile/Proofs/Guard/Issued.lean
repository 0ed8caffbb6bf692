import Turnstile.Proofs.Guard.Exclusive

/-!
The conduct of those who have to do with a key that the server makes.

The key is made up and issued once. Then visitors present it, readers look it up and evictors remove its record, in
any number and any order. The record may be gone at any moment, by eviction or because it ran out. No call fails,
nobody from outside touches the record or the lock, and every lock is given back before it runs out. There is no
limit on time.

Nobody who presents such a key creates a record. So there is no way back to a pending record: once it is gone or has
a result, no look reads the pending text any more. Who holds the lock and has succeeded finds the record pending or
gone, and is the only one who may write to it.
-/

namespace Turnstile

variable {α ω τ : Type} {k : String}

/-- A look at the record that read the pending text. -/
def Note.SeesPending (k : String) (note : Note ω) : Prop :=
  note.deed = .called (.get (recordKey k)) (.ok (some Record.placeholder))

/-- A caller has seen the record pending. -/
def HasSeenPending (k : String) (i : Nat) (past : List (Note ω)) : Prop :=
  ∃ note ∈ past, note.caller = i ∧ note.SeesPending k

/-- A caller made the key up. -/
def Names (k : String) (i : Nat) (past : List (Note ω)) : Prop := ∃ time, ⟨i, time, .named k⟩ ∈ past

/-- A live record shows what was written last. -/
def ShowsLast (all : List Write) (record : Option (Entry α)) : Prop :=
  ∀ e, record = some e → ∃ write, all.head? = some write ∧ e.text? = some write.text

/-- The record was created and is not pending any more. -/
def Passed (k : String) (v : Scene α ω) : Prop :=
  writes k v.past ≠ [] ∧ v.record.bind Entry.text? ≠ some Record.placeholder

/-- A caller who may store its result: it holds the lock and has succeeded, and the record has no result. -/
structure Storing (k : String) (i : Nat) (past : List (Note (Except Failure τ))) : Prop where
  holding : Holding k i past
  won : HasWon i past
  unresolved : ¬ HasResult k past
  written : writes k past ≠ []

/-- What holds of a key that the server makes. -/
structure Issued (visits : Nat → Visit τ) (k : String) (v : Scene α (Except Failure τ)) : Prop where
  fenced : Fenced k v
  inTime : InTime k v
  standing : Standing (writes k v.past)
  before : ∀ write ∈ writes k v.past, write.time ≤ v.now
  shows : ShowsLast (writes k v.past) v.record
  /-- Whoever created the record had made the key up. -/
  made : writes k v.past ≠ [] → ∃ i, Names k i v.past
  readable : ∀ write ∈ writes k v.past, write.text = Record.placeholder ∨ Readable visits write.text
  /-- Who has succeeded has stored the result, or is about to. -/
  won : ∀ i, HasWon i v.past → HasResult k v.past ∨ Holding k i v.past
  /-- Nothing ran after a success. -/
  order : v.past.Pairwise fun later earlier => later.isWork → ¬ earlier.isWin
  /-- Whoever ran the operation had seen the record pending. -/
  seen : ∀ note ∈ v.past, note.isWork → HasSeenPending k note.caller v.past

/-- How the record may be touched: by looking at it and removing it, by creating it with the name one made up, and by
storing a result. -/
def IssuedRecordRule (visits : Nat → Visit τ) (k : String) (i : Nat) (past : List (Note (Except Failure τ))) :
    Doing → Prop
  | .calling c => c.key? = some (recordKey k) →
      c = .get (recordKey k) ∨ c = .delete (recordKey k) ∨
        (∃ life, c = .setIfAbsent (recordKey k) Record.placeholder life ∧ Names k i past ∧ writes k past = []) ∨
        ∃ text life, (c = .compareAndSet (recordKey k) Record.placeholder text life ∨
            c = .setIfAbsent (recordKey k) text life) ∧
          text ≠ Record.placeholder ∧ Readable visits text ∧ Storing k i past
  | _ => True

/-- What callers may do. Who runs the operation holds the lock and has seen the record pending, and nobody has
succeeded; who gives the lock back after a success has stored the result; who breaks down has not succeeded. -/
structure IssuedRule (visits : Nat → Visit τ) (k : String) (i : Nat) (v : Scene α (Except Failure τ))
    (doing : Doing) : Prop where
  lock : LockRule k i v doing
  record : IssuedRecordRule visits k i v.past doing
  working : doing = .working → Holding k i v.past ∧ (∀ j, ¬ HasWon j v.past) ∧ HasSeenPending k i v.past
  leaving : ∀ token, doing = .calling (.deleteIfEquals (lockKey k) token) → HasWon i v.past → HasResult k v.past
  breaking : doing = .breaking → ¬ HasWon i v.past

/-- What a caller relies on: while it holds the lock it goes on holding it and nobody else stores a result; nobody
else creates a record with the name it made up; and a record that is not pending any more does not become so. -/
structure Unhindered (k : String) (i : Nat) (v v' : Scene α (Except Failure τ)) : Prop where
  onward : v.Onward i v'
  holding : Holding k i v.past → Holding k i v'.past
  result : Holding k i v.past → HasResult k v'.past → HasResult k v.past
  unissued : Names k i v.past → writes k v.past = [] → writes k v'.past = []
  passed : Passed k v → Passed k v'

section

variable {visits : Nat → Visit τ} {i j : Nat} {v v' : Scene α (Except Failure τ)}

/-- Who has seen the record pending has seen it, whatever is noted besides. -/
theorem hasSeenPending_mono {past past' : List (Note ω)} (more : past ⊆ past') (seen : HasSeenPending k i past) :
    HasSeenPending k i past' := by
  obtain ⟨note, noted, is⟩ := seen
  exact ⟨note, more noted, is⟩

/-- And who has made up the key has made it up. -/
theorem names_mono {past past' : List (Note ω)} (more : past ⊆ past') (names : Names k i past) :
    Names k i past' := by
  obtain ⟨time, noted⟩ := names
  exact ⟨time, more noted⟩

/-- What is relied on through one part of a course and the next is relied on through both: each field is kept by the
first part and then by the second. -/
theorem Unhindered.trans {v'' : Scene α (Except Failure τ)} (first : Unhindered k i v v')
    (second : Unhindered k i v' v'') : Unhindered k i v v'' where
  onward := first.onward.trans second.onward
  holding holding := second.holding (first.holding holding)
  result holding result := first.result holding (second.result (first.holding holding) result)
  unissued names nothing :=
    second.unissued (names_mono first.onward.more names) (first.unissued names nothing)
  passed passed := second.passed (first.passed passed)

/-- A record that is gone, or was expired, is not pending. If it shows at all, it shows what it did before. -/
theorem passed_of_less {w w' : Scene α ω} (same : w'.past = w.past)
    (less : ∀ e, w'.record = some e → w.record = some e) (passed : Passed k w) : Passed k w' := by
  refine ⟨by rw [same]; exact passed.1, fun pending => ?_⟩
  obtain ⟨e, there, is⟩ := Option.bind_eq_some_iff.mp pending
  exact passed.2 (Option.bind_eq_some_iff.mpr ⟨e, less e there, is⟩)

/-- Before anybody does anything, the key may still be issued: there are no notes, and neither a record nor a lock. -/
theorem Issued.start (nothing : v.past = []) (free : v.record = none) (unlocked : v.lock = none) :
    Issued visits k v where
  fenced := Fenced.start nothing unlocked
  inTime := by simp [InTime, claims, nothing]
  standing := by simpa [writes, nothing] using Standing.nothing
  before := by simp [writes, nothing]
  shows e there := by
    rw [free] at there
    cases there
  made := by simp [writes, nothing]
  readable := by simp [writes, nothing]
  won := by simp [HasWon, nothing]
  order := by simp [nothing]
  seen := by simp [nothing]

/-- A live record is pending and has no result, or shows a result that every visitor can read. It shows what was written
last, and a result is always written after the pending text. -/
theorem Issued.shown (issued : Issued visits k v) :
    v.record = none ∨
      (v.record.bind Entry.text? = some Record.placeholder ∧ writes k v.past ≠ [] ∧ ¬ HasResult k v.past) ∨
      ∃ text, v.record.bind Entry.text? = some text ∧ text ≠ Record.placeholder ∧ HasResult k v.past ∧
        Readable visits text := by
  cases there : v.record with
  | none => exact .inl rfl
  | some e =>
    obtain ⟨write, last, is⟩ := issued.shows e there
    have text : (some e).bind Entry.text? = some write.text := is
    have written : write ∈ writes k v.past := List.mem_of_mem_head? last
    have standing := issued.standing
    rw [text]
    by_cases pending : write.text = Record.placeholder
    · refine .inr (.inl ⟨congrArg some pending, List.ne_nil_of_mem written, fun ⟨other, wrote, result⟩ => ?_⟩)
      have same := standing.head_of_result wrote result
      rw [last] at same
      exact result (Option.some.inj same ▸ pending)
    · refine .inr (.inr ⟨write.text, rfl, pending, ⟨write, written, pending⟩, ?_⟩)
      exact (issued.readable write written).resolve_left pending

/-- Whoever may store its result finds the record pending or gone, for it is the only one who has succeeded, and so
there is no other result. -/
theorem Issued.gone (issued : Issued visits k v) (storing : Storing k i v.past) (passed : Passed k v) :
    v.record = none := by
  rcases issued.shown with gone | ⟨pending, _⟩ | ⟨_, _, _, result, _⟩
  · exact gone
  · exact absurd pending passed.2
  · exact absurd result storing.unresolved

/-- Who may store its result stays so while others move: they neither take its lock nor store a result of theirs. -/
theorem storing_onward {v' : Scene α (Except Failure τ)} (moved : Unhindered k i v v')
    (storing : Storing k i v.past) : Storing k i v'.past where
  holding := moved.holding storing.holding
  won := by
    obtain ⟨note, noted, is⟩ := storing.won
    exact ⟨note, moved.onward.more noted, is⟩
  unresolved result := storing.unresolved (moved.result storing.holding result)
  written := Ledger.written_mono moved.onward.more storing.written

/-- While nothing but the time and expired entries change, all stays as it is, for the rest is told by the notes. -/
theorem Issued.idle (issued : Issued visits k v) (same : v'.past = v.past) (ahead : v.now ≤ v'.now)
    (fenced : Fenced k v') (inTime : InTime k v') (less : ∀ e, v'.record = some e → v.record = some e) :
    Issued visits k v' where
  fenced := fenced
  inTime := inTime
  standing := by simpa only [same] using issued.standing
  before := by
    rw [same]
    exact fun write written => Nat.le_trans (issued.before write written) ahead
  shows := by
    rw [same]
    exact fun e there => issued.shows e (less e there)
  made := by simpa only [same] using issued.made
  readable := by simpa only [same] using issued.readable
  won := by simpa only [same] using issued.won
  order := by simpa only [same] using issued.order
  seen := by simpa only [same] using issued.seen

/-- A move that adds no note and shows nothing new hinders nobody. All that is relied on is told by the notes and by
what the record shows. -/
theorem unhindered_idle (same : v'.past = v.past) (onward : v.Onward j v')
    (less : ∀ e, v'.record = some e → v.record = some e) : Unhindered k j v v' where
  onward := onward
  holding holding := by rwa [same]
  result _ result := by rwa [same] at result
  unissued _ nothing := by rwa [same]
  passed := passed_of_less same less

/-- A result that is stored is the first, and comes after the key was issued: its caller has seen the record pending, so
it was written, and no result has been stored since. -/
theorem Issued.resolved (issued : Issued visits k v) (storing : Storing k i v.past) {text : String}
    (result : text ≠ Record.placeholder) : Standing (⟨i, v.now, text⟩ :: writes k v.past) := by
  have standing := issued.standing
  have unresolved := storing.unresolved
  have written := storing.written
  have earlier := issued.before
  unfold HasResult at unresolved
  generalize writes k v.past = old at standing unresolved written earlier ⊢
  cases standing with
  | nothing => exact absurd rfl written
  | pending first created => exact .resolved _ first created result (earlier first List.mem_cons_self)
  | resolved last first _ other _ => exact absurd ⟨last, List.mem_cons_self, other⟩ unresolved

variable [TokenNumber α]

/-- What a deed does to the record: it writes nothing and shows nothing new, or it creates the record with the name
its caller made up, or it stores a result. -/
theorem IssuedRecordRule.deed {deed : Deed (Except Failure τ)}
    (rule : IssuedRecordRule visits k i v.past deed.doing) (did : Scene.Own k i deed v v') :
    ((⟨i, v.now, deed⟩ : Note (Except Failure τ)).write? k = none ∧
        ∀ e, v'.record = some e → v.record = some e) ∨
      ∃ text, (⟨i, v.now, deed⟩ : Note (Except Failure τ)).write? k = some ⟨i, v.now, text⟩ ∧
        (∀ e, v'.record = some e → e.text? = some text) ∧
        ((text = Record.placeholder ∧ Names k i v.past ∧ writes k v.past = []) ∨
          (text ≠ Record.placeholder ∧ Readable visits text ∧ Storing k i v.past)) := by
  have record := did.record
  cases deed with
  | broke c why => exact .inl ⟨rfl, fun e there => record ▸ there⟩
  | named name => exact .inl ⟨rfl, fun e there => record ▸ there⟩
  | worked answer => exact .inl ⟨rfl, fun e there => record ▸ there⟩
  | called c reply =>
    by_cases touched : c.key? = some (recordKey k)
    · cases reply with
      | error why => exact .inl ⟨Ledger.unwritten_of_failed c why v.now, fun e there => record ▸ there⟩
      | ok reply =>
        obtain ⟨after, decided, shown⟩ := Deed.changes_at touched record
        -- What a call that writes nothing leaves is what was there before, or nothing.
        have unchanged (same : after = v.record) (e : Entry α) (there : v'.record = some e) : v.record = some e := by
          rw [shown, same] at there
          exact (Option.filter_eq_some_iff.mp there).1
        have fresh {text : String} {expires : Moment} (is : after = some ⟨.text text, expires⟩) (e : Entry α)
            (there : v'.record = some e) : e.text? = some text := by
          rw [shown, is] at there
          rw [← Option.some.inj (Option.filter_eq_some_iff.mp there).1]
          rfl
        rcases rule touched with rfl | rfl | ⟨life, rfl, made⟩ | ⟨text, life, rfl | rfl, storing⟩
        · exact .inl ⟨rfl, unchanged (Call.onEntry_get decided).2⟩
        · cases decided
          exact .inl ⟨rfl, fun e there => by rw [shown] at there; cases there⟩
        · cases reply with
          | false => exact .inl ⟨rfl, unchanged (Call.onEntry_set_false decided).2⟩
          | true =>
            obtain ⟨_, expires, _, is⟩ := Call.onEntry_set_true decided
            exact .inr ⟨Record.placeholder, by simp [Note.write?], fresh is, .inl ⟨rfl, made⟩⟩
        · cases reply with
          | false => exact .inl ⟨rfl, unchanged (Call.onEntry_replace_false decided).2⟩
          | true =>
            obtain ⟨_, expires, _, is⟩ := Call.onEntry_replace_true decided
            exact .inr ⟨text, by simp [Note.write?], fresh is, .inr storing⟩
        · cases reply with
          | false => exact .inl ⟨rfl, unchanged (Call.onEntry_set_false decided).2⟩
          | true =>
            obtain ⟨_, expires, _, is⟩ := Call.onEntry_set_true decided
            exact .inr ⟨text, by simp [Note.write?], fresh is, .inr storing⟩
    · have same := Deed.changes_elsewhere touched record
      exact .inl ⟨Ledger.unwritten_of_elsewhere touched reply v.now, fun e there => same ▸ there⟩

/-- What has been written after a deed that writes, and after one that does not. -/
theorem writes_own {deed : Deed (Except Failure τ)} (did : Scene.Own k i deed v v') :
    writes k v'.past = ((⟨i, v.now, deed⟩ : Note (Except Failure τ)).write? k).toList ++ writes k v.past := by
  rw [did.past]
  unfold writes
  cases is : (⟨i, v.now, deed⟩ : Note (Except Failure τ)).write? k <;> simp [is]

/-- A deed that is allowed does not make a record pending that is so no more. The rule lets a placeholder be written
only where nothing was written before. -/
theorem passed_own {deed : Deed (Except Failure τ)} (rule : IssuedRecordRule visits k i v.past deed.doing)
    (did : Scene.Own k i deed v v') (passed : Passed k v) : Passed k v' := by
  refine ⟨Ledger.written_mono did.more passed.1, fun pending => ?_⟩
  obtain ⟨e, there, is⟩ := Option.bind_eq_some_iff.mp pending
  rcases rule.deed did with ⟨-, less⟩ | ⟨text, -, fresh, ⟨-, -, nothing⟩ | ⟨result, -, -⟩⟩
  · exact passed.2 (Option.bind_eq_some_iff.mpr ⟨e, less e there, is⟩)
  · exact passed.1 nothing
  · rw [fresh e there] at is
    exact result (Option.some.inj is)

/-- Who runs the operation has seen the record pending, so that holds of all who ever ran it: of the earlier ones by
what was known of them, and of this one by the rule. -/
theorem seen_own {deed : Deed (Except Failure τ)} (did : Scene.Own k i deed v v')
    (working : deed.doing = .working → HasSeenPending k i v.past)
    (seen : ∀ note ∈ v.past, note.isWork → HasSeenPending k note.caller v.past) :
    ∀ note ∈ v'.past, note.isWork → HasSeenPending k note.caller v'.past := by
  intro note noted work
  rw [did.past] at noted
  rcases List.mem_cons.mp noted with new | old
  · obtain ⟨answer, is⟩ := work
    rw [new] at is ⊢
    have is : deed = .worked answer := is
    exact hasSeenPending_mono did.more (working (by rw [is]; rfl))
  · exact hasSeenPending_mono did.more (seen note old work)

/-- What is shown after a deed that is allowed is what was written last: the deed shows nothing new, or what it writes. -/
theorem IssuedRecordRule.showsLast {deed : Deed (Except Failure τ)}
    (rule : IssuedRecordRule visits k i v.past deed.doing) (did : Scene.Own k i deed v v')
    (shows : ShowsLast (writes k v.past) v.record) : ShowsLast (writes k v'.past) v'.record := by
  intro e there
  have all := writes_own did
  rcases rule.deed did with ⟨unwritten, less⟩ | ⟨text, wrote, fresh, -⟩
  · rw [unwritten, Option.toList_none, List.nil_append] at all
    rw [all]
    exact shows e (less e there)
  · rw [wrote, Option.toList_some, List.singleton_append] at all
    exact ⟨_, by rw [all]; rfl, fresh e there⟩

/-- A key keeps to its life: it is created when nothing was written to its record, and a result is stored when nothing but
the pending text was. -/
theorem Issued.standing_own {deed : Deed (Except Failure τ)} (issued : Issued visits k v)
    (rule : IssuedRecordRule visits k i v.past deed.doing) (did : Scene.Own k i deed v v') :
    Standing (writes k v'.past) := by
  have all := writes_own did
  rcases rule.deed did with ⟨unwritten, -⟩ | ⟨text, wrote, -, ⟨rfl, -, nothing⟩ | ⟨result, -, storing⟩⟩
  · rw [unwritten, Option.toList_none, List.nil_append] at all
    exact all ▸ issued.standing
  · rw [wrote, nothing, Option.toList_some, List.singleton_append] at all
    exact all ▸ .pending _ rfl
  · rw [wrote, Option.toList_some, List.singleton_append] at all
    exact all ▸ issued.resolved storing result

/-- A deed that is allowed and goes well keeps what holds of the key. What it writes to the record is the pending text under
a name that its caller made up, or a result that every visitor can read. -/
theorem Issued.own {deed : Deed (Except Failure τ)} (issued : Issued visits k v)
    (rule : IssuedRule visits k i v deed.doing) (did : Scene.Own k i deed v v') (inTime : InTime k v') :
    Issued visits k v' := by
  have fenced : Fenced k v' := issued.fenced.own rule.lock did
  have wrote {write : Write} (new : (⟨i, v.now, deed⟩ : Note (Except Failure τ)).write? k = some write) :
      write.time = v.now ∧ ((write.text = Record.placeholder ∧ Names k i v.past) ∨
        (Readable visits write.text ∧ writes k v.past ≠ [])) := by
    rcases rule.record.deed did with ⟨unwritten, -⟩ | ⟨text, wrote, -, ⟨pending, names, -⟩ | ⟨-, readable, storing⟩⟩
    · rw [unwritten] at new
      cases new
    · rw [wrote] at new
      cases new
      exact ⟨rfl, .inl ⟨pending, names⟩⟩
    · rw [wrote] at new
      cases new
      exact ⟨rfl, .inr ⟨readable, storing.written⟩⟩
  exact {
    fenced := fenced
    inTime := inTime
    standing := issued.standing_own rule.record did
    before := by
      intro write written
      rw [did.now]
      rcases Ledger.mem_own did written with old | new
      · exact issued.before write old
      · exact Nat.le_of_eq (congrArg Moment.nanos (wrote new).1)
    shows := rule.record.showsLast did issued.shows
    made := by
      intro written
      obtain ⟨write, here⟩ := List.exists_mem_of_ne_nil _ written
      rcases Ledger.mem_own did here with old | new
      · exact (issued.made (List.ne_nil_of_mem old)).imp fun _ => names_mono did.more
      · rcases (wrote new).2 with ⟨-, names⟩ | ⟨-, before⟩
        · exact ⟨i, names_mono did.more names⟩
        · exact (issued.made before).imp fun _ => names_mono did.more
    readable := by
      intro write written
      rcases Ledger.mem_own did written with old | new
      · exact issued.readable write old
      · exact (wrote new).2.imp And.left And.left
    won := won_own fenced did (fun works => (rule.working works).1) rule.leaving issued.won
    order := order_own did (fun works => (rule.working works).2.1) issued.order
    seen := seen_own did (fun works => (rule.working works).2.2) issued.seen }

/-- A deed that is allowed hinders nobody else: only the holder of the lock stores a result, and a name that was made up is
nobody else's to create the record with. -/
theorem Issued.unhindered {deed : Deed (Except Failure τ)} (issued : Issued visits k v)
    (rule : IssuedRule visits k i v deed.doing) (did : Scene.Own k i deed v v') (fenced : Fenced k v')
    (other : j ≠ i) : Unhindered k j v v' where
  onward := did.onward other
  holding := holding_own fenced did fun same => absurd same other
  result holding result := by
    rw [did.past] at result
    refine hasResult_of_cons (fun write written => ?_) result
    rcases rule.record.deed did with ⟨unwritten, -⟩ | ⟨text, wrote, -, ⟨pending, -, -⟩ | ⟨-, -, storing⟩⟩
    · rw [unwritten] at written
      cases written
    · rw [wrote] at written
      exact (Option.some.inj written) ▸ pending
    · exact absurd (holder_unique issued.fenced issued.inTime holding storing.holding) other
  unissued names nothing := by
    have all := writes_own did
    rcases rule.record.deed did with ⟨unwritten, -⟩ | ⟨text, -, -, ⟨-, mine, -⟩ | ⟨-, -, storing⟩⟩
    · rw [all, unwritten, nothing]
      rfl
    · obtain ⟨time, noted⟩ := names
      obtain ⟨time', noted'⟩ := mine
      exact absurd (issued.fenced.single k j i time time' noted noted') other
    · exact absurd nothing storing.written
  passed := passed_own rule.record did

/-- Who may store its result can still do so after a call at the record that wrote nothing. It gave no lock back, and no
result is written. -/
theorem storing_own {c : Call} {reply : Except Failure c.Reply} {v v' : Scene α (Except Failure τ)}
    (touched : c.key? = some (recordKey k)) (fenced : Fenced k v')
    (unwritten : (⟨i, v.now, .called c reply⟩ : Note (Except Failure τ)).write? k = none)
    (did : Scene.Own k i (.called c reply) v v') (storing : Storing k i v.past) : Storing k i v'.past where
  holding := holding_own fenced did (fun _ => kept_of_record touched reply v.now) storing.holding
  won := by
    obtain ⟨note, noted, is⟩ := storing.won
    exact ⟨note, did.more noted, is⟩
  unresolved result := by
    rw [did.past] at result
    exact storing.unresolved (hasResult_of_cons (fun _ is => by rw [unwritten] at is; cases is) result)
  written := Ledger.written_mono did.more storing.written

/-- The conduct towards a key that the server makes. -/
def issuedOnce (visits : Nat → Visit τ) (k : String) : Conduct α (Except Failure τ) where
  key := k
  fair move _ v' := move.Undisturbed visits k ∧ InTime k v'
  inv := Issued visits k
  may := IssuedRule visits k
  rely := Unhindered k
  onward _ _ _ moved := moved.onward
  rely_refl i v := unhindered_idle rfl (.refl i v) fun _ there => there
  rely_trans _ _ _ _ := Unhindered.trans
  own _ _ _ _ issued rule did fair :=
    have after := issued.own rule did fair.2
    ⟨after, fun _ other => issued.unhindered rule did after.fenced other⟩
  outside _ v v' issued moved fair :=
    have same : v'.record = v.record :=
      have ⟨_, record, _⟩ := moved.changes
      Deed.changes_elsewhere fair.1.1 record
    have less : ∀ e, v'.record = some e → v.record = some e := fun _ there => same ▸ there
    ⟨issued.idle moved.past (Nat.le_of_eq (congrArg Moment.nanos moved.now.symm))
      (issued.fenced.outside fair.1.2 moved) fair.2 less, fun _ => unhindered_idle moved.past moved.onward less⟩
  waited _ _ issued ahead fair :=
    have less := fun _ there => (Option.filter_eq_some_iff.mp there).1
    ⟨issued.idle rfl ahead (issued.fenced.waited ahead) fair.2 less,
      fun _ => unhindered_idle rfl (Scene.onward_waited ahead) less⟩
  broke _ _ _ _ _ _ _ _ fair _ _ _ := fair.1.elim

end

end Turnstile
