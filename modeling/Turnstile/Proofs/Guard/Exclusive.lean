import Turnstile.Proofs.Guard.Progress
import Turnstile.Proofs.Guard.Visit

/-!
The conduct of callers whom nothing disturbs.

No call fails, nobody from outside touches the record or the lock of the key, every lock is given back before it
runs out, and the record does not outlive its life. The key may have been issued, and even resolved, before the
callers come. The invariant says for each operation that has succeeded that its result is in the record or its
caller still holds the lock. At most one claim is open at a time, for all open claims are running.
-/

namespace Turnstile

variable {α τ : Type} {k : String}

/-- The text of a result that every visitor can read. -/
def Readable (visits : Nat → Visit τ) (text : String) : Prop :=
  ∃ value, Record.read text = .ok (.resolved value) ∧ ∀ i, ∃ result, (visits i).codec.decode value = .ok result

/-- A result that its visitor can write and every visitor can read. -/
def Serializes (visits : Nat → Visit τ) (i : Nat) (result : τ) : Prop :=
  ∃ value, (visits i).codec.encode result = .ok value ∧ Readable visits (Record.resolved value).text

/-- A caller's deed went well: its call was answered, or its operation gave a result that serializes. -/
def Deed.WentWell (visits : Nat → Visit τ) (i : Nat) : Deed (Except Failure τ) → Prop
  | .called _ (.error _) => False
  | .broke _ _ => False
  | .worked (.ok result) => Serializes visits i result
  | _ => True

/-- A move without mishaps: deeds go well, and the record and the lock are left alone from outside. -/
def Move.Undisturbed (visits : Nat → Visit τ) (k : String) : Move (Except Failure τ) → Prop
  | .own i deed => deed.WentWell visits i
  | .outside c => c.key? ≠ some (recordKey k) ∧ c.key? ≠ some (lockKey k)
  | _ => True

/-- The record has not lived out its life since it was first written. -/
def WithinLife (k : String) (life : Span) (v : Scene α (Except Failure τ)) : Prop :=
  ∀ first ∈ (writes k v.past).getLast?, v.now.nanos < first.time.nanos + life.nanos

instance (k : String) (life : Span) (v : Scene α (Except Failure τ)) : Decidable (WithinLife k life v) :=
  inferInstanceAs (Decidable (∀ first ∈ (writes k v.past).getLast?, _))

/-- What holds while nothing disturbs the visitors. -/
structure Exclusive (visits : Nat → Visit τ) (k : String) (life : Span) (v : Scene α (Except Failure τ)) : Prop where
  fenced : Fenced k v
  inTime : InTime k v
  ledger : Ledger k life v
  stands : Stands k v
  readable : ∀ write ∈ writes k v.past, write.text = Record.placeholder ∨ Readable visits write.text
  /-- Who has succeeded has stored the result, or is about to. -/
  won : ∀ i, HasWon i v.past → HasResult k v.past ∨ Holding k i v.past
  /-- Nothing ran after a success. -/
  order : v.past.Pairwise fun later earlier => later.isWork → ¬ earlier.isWin

/-- What visitors may do. Who stores a result holds the lock; who runs the operation holds it, and there is no
result and no success; who gives the lock back after a success has stored the result. -/
structure OnceRule (visits : Nat → Visit τ) (k : String) (life : Span) (i : Nat) (v : Scene α (Except Failure τ))
    (doing : Doing) : Prop where
  early : ¬ CameLate k i v.past
  lock : LockRule k i v doing
  record : RecordRule k life doing
  storing : ∀ text, doing = .calling (.compareAndSet (recordKey k) Record.placeholder text life) →
    Holding k i v.past ∧ Readable visits text
  working : doing = .working → Holding k i v.past ∧ ∀ j, ¬ HasWon j v.past
  leaving : ∀ token, doing = .calling (.deleteIfEquals (lockKey k) token) → HasWon i v.past → HasResult k v.past

/-- What a visitor relies on: while it holds the lock it goes on holding it, and nobody else stores a result. -/
structure Sheltered (k : String) (i : Nat) (v v' : Scene α (Except Failure τ)) : Prop where
  onward : v.Onward i v'
  holding : Holding k i v.past → Holding k i v'.past
  result : Holding k i v.past → HasResult k v'.past → HasResult k v.past

section

variable {visits : Nat → Visit τ} {life : Span} {i j : Nat} {v v' : Scene α (Except Failure τ)}

/-- What is relied on through one part of a course and the next is relied on through both. A result of somebody else is
not stored in either part while the caller holds the lock, which it does all the time. -/
theorem Sheltered.trans {v'' : Scene α (Except Failure τ)} (first : Sheltered k i v v')
    (second : Sheltered k i v' v'') : Sheltered k i v v'' where
  onward := first.onward.trans second.onward
  holding holding := second.holding (first.holding holding)
  result holding result := first.result holding (second.result (first.holding holding) result)

/-- At most one visitor holds the lock: of two open claims that are both running one would have run out when the other was
granted. -/
theorem Exclusive.holder_unique (exclusive : Exclusive visits k life v) (mine : Holding k i v.past)
    (other : Holding k j v.past) : i = j :=
  Turnstile.holder_unique exclusive.fenced exclusive.inTime mine other

/-- While its life lasts, the record stands. The life counts from its creation, and a result that came later lives even
longer. -/
theorem Ledger.stands_of_withinLife (ledger : Ledger k life v) (within : WithinLife k life v) : Stands k v := by
  intro written
  have shows := ledger.shows
  have standing := ledger.standing
  unfold WithinLife at within
  generalize writes k v.past = all at shows standing within written
  cases standing with
  | nothing => exact absurd rfl written
  | pending first _ =>
    have live : v.now < ⟨first.time.nanos + life.nanos⟩ := within first rfl
    simp [shows, Option.filter, Write.entry, Entry.isLive, live]
  | resolved last first _ _ order =>
    have live : v.now < ⟨last.time.nanos + life.nanos⟩ :=
      Nat.lt_of_lt_of_le (within first rfl) (Nat.add_le_add_right order life.nanos)
    simp [shows, Option.filter, Write.entry, Entry.isLive, live]

/-- When no visitor does anything, it is enough that lock and record are as they should be: all else is told by the
notes, and those stay. -/
theorem Exclusive.idle (exclusive : Exclusive visits k life v) (same : v'.past = v.past) (fenced : Fenced k v')
    (ledger : Ledger k life v') (inTime : InTime k v') (within : WithinLife k life v') :
    Exclusive visits k life v' where
  fenced := fenced
  inTime := inTime
  ledger := ledger
  stands := ledger.stands_of_withinLife within
  readable := by
    rw [same]
    exact exclusive.readable
  won := by
    rw [same]
    exact exclusive.won
  order := by
    rw [same]
    exact exclusive.order

/-- A move that adds no note leaves everybody sheltered, for holding and results are told by the notes alone. -/
theorem sheltered_idle (same : v'.past = v.past) (onward : v.Onward j v') : Sheltered k j v v' where
  onward := onward
  holding holding := by rwa [same]
  result _ result := by rwa [same] at result

/-- Calls at the record touch no lock: the keys of the two are different, whatever the idempotency key is. -/
theorem lockRule_elsewhere {c : Call} (touched : c.key? = some (recordKey k)) : LockRule k i v (.calling c) := by
  intro locks
  rw [touched] at locks
  exact absurd (Option.some.inj locks) (recordKey_ne_lockKey k k)

/-- Calls at the record are allowed by its rule. They neither run the operation nor give the lock back, so nothing else
is asked but that whoever stores a result holds the lock and that everybody can read what it stores. -/
theorem onceRule_record {c : Call} (early : ¬ CameLate k i v.past) (touched : c.key? = some (recordKey k))
    (record : RecordRule k life (.calling c))
    (storing : ∀ text, c = .compareAndSet (recordKey k) Record.placeholder text life →
      Holding k i v.past ∧ Readable visits text) :
    OnceRule visits k life i v (.calling c) where
  early := early
  lock := lockRule_elsewhere touched
  record := record
  storing text is := storing text (Doing.calling.inj is)
  working := nofun
  leaving token is := by
    cases is
    exact absurd (Option.some.inj touched).symm (recordKey_ne_lockKey k k)

/-- A look is allowed to whoever has not come late, as it changes nothing. -/
theorem onceRule_get (early : ¬ CameLate k i v.past) :
    OnceRule visits k life i v (.calling (.get (recordKey k))) :=
  onceRule_record early rfl (fun _ => .inl rfl) nofun

/-- Issuing the key is allowed to whoever has not come late. If the key has a record the store refuses, and if it has
none the pending text is all that is written. -/
theorem onceRule_issue (early : ¬ CameLate k i v.past) :
    OnceRule visits k life i v (.calling (.setIfAbsent (recordKey k) Record.placeholder life)) :=
  onceRule_record early rfl (fun _ => .inr (.inl rfl)) nofun

/-- Putting a result that everybody can read in place of the pending text is allowed to whoever holds the lock. Nobody
else can have stored a result meanwhile. -/
theorem onceRule_replace {value : Json.Value} (early : ¬ CameLate k i v.past) (holding : Holding k i v.past)
    (readable : Readable visits (Record.resolved value).text) : OnceRule visits k life i v
      (.calling (.compareAndSet (recordKey k) Record.placeholder (Record.resolved value).text life)) := by
  refine onceRule_record early rfl (fun _ => .inr (.inr ⟨_, rfl, Record.text_ne_placeholder value⟩)) fun text is => ?_
  cases is
  exact ⟨holding, readable⟩

/-- Calls at other keys are allowed to whoever has not come late: no rule of the record or of the lock is about them. -/
theorem onceRule_elsewhere {c : Call} (early : ¬ CameLate k i v.past)
    (elsewhere : c.key? ≠ some (recordKey k) ∧ c.key? ≠ some (lockKey k)) :
    OnceRule visits k life i v (.calling c) where
  early := early
  lock here := absurd here elsewhere.2
  record here := absurd here elsewhere.1
  storing text is := by
    cases is
    exact absurd rfl elsewhere.1
  working := nofun
  leaving token is := by
    cases is
    exact absurd rfl elsewhere.2

/-- Making up a name and breaking down are allowed to whoever has not come late, for neither touches the store. -/
theorem onceRule_quiet {doing : Doing} (quiet : doing = .naming ∨ doing = .breaking)
    (early : ¬ CameLate k i v.past) : OnceRule visits k life i v doing where
  early := early
  lock := by rcases quiet with rfl | rfl <;> trivial
  record := by rcases quiet with rfl | rfl <;> trivial
  storing text is := by rcases quiet with rfl | rfl <;> cases is
  working is := by rcases quiet with rfl | rfl <;> cases is
  leaving token is := by rcases quiet with rfl | rfl <;> cases is

/-- The operation may be run by whoever holds the lock, as long as nobody has succeeded. That nobody has is what a look
under the lock tells, since a success stores its result before the lock is given back. -/
theorem onceRule_working (early : ¬ CameLate k i v.past) (holding : Holding k i v.past)
    (nobody : ∀ j, ¬ HasWon j v.past) : OnceRule visits k life i v .working where
  early := early
  lock := trivial
  record := trivial
  storing := nofun
  working _ := ⟨holding, nobody⟩
  leaving := nofun

/-- A try for the lock is allowed with a name of the caller's own, by which its claim can be told from all others. -/
theorem onceRule_claim {token : String} {lockLife : Span} (early : ¬ CameLate k i v.past)
    (fresh : Fresh k i token v) :
    OnceRule visits k life i v (.calling (.setIfAbsent (lockKey k) token lockLife)) where
  early := early
  lock _ := .inl ⟨token, lockLife, rfl, fresh⟩
  record touched := absurd touched (lock_elsewhere k k)
  storing := nofun
  working := nofun
  leaving := nofun

/-- A record shows nothing, the pending text, or a result that everybody can read: these are the ways in which it can
have been written to. -/
theorem Exclusive.shown (exclusive : Exclusive visits k life v) :
    (writes k v.past = [] ∧ ¬ HasResult k v.past) ∨
      ((writes k v.past).head?.map Write.text = some Record.placeholder ∧ ¬ HasResult k v.past) ∨
      (HasResult k v.past ∧ ∃ text, (writes k v.past).head?.map Write.text = some text ∧ Readable visits text) := by
  have standing := exclusive.ledger.standing
  have readable := exclusive.readable
  unfold HasResult
  generalize writes k v.past = all at standing readable ⊢
  cases standing with
  | nothing => exact .inl ⟨rfl, fun ⟨_, written, _⟩ => List.not_mem_nil written⟩
  | pending first created =>
    refine .inr (.inl ⟨congrArg some created, fun ⟨write, written, result⟩ => ?_⟩)
    rw [List.mem_singleton.mp written] at result
    exact result created
  | resolved last first created result _ =>
    refine .inr (.inr ⟨⟨last, List.mem_cons_self, result⟩, last.text, rfl, ?_⟩)
    exact (readable last List.mem_cons_self).resolve_left result

/-- Who holds the lock, came early, and has had no success yet. -/
structure Working (k : String) (i : Nat) (past : List (Note (Except Failure τ))) : Prop where
  holding : Holding k i past
  early : CameEarly k i past
  fresh : ¬ HasWon i past

/-- Who may give the lock back: it came early, and if its operation had success the record has a result. -/
structure Leaving (k : String) (i : Nat) (past : List (Note (Except Failure τ))) : Prop where
  early : CameEarly k i past
  stored : HasWon i past → HasResult k past

/-- Who works under the lock may leave it: it has had no success, so nothing has to be stored first. -/
theorem Working.leaving (working : Working k i v.past) : Leaving k i v.past :=
  ⟨working.early, fun won => absurd won working.fresh⟩

/-- Giving the lock back is allowed to whoever has claimed it and may leave: after a success of its own that is only when
the record has a result, so that nobody runs the operation again under the lock it leaves. -/
theorem onceRule_giveBack {token : String} (leaving : Leaving k i v.past) (claimed : Claimed k i token v) :
    OnceRule visits k life i v (.calling (Lease.giveBack ⟨k, token⟩)) where
  early := leaving.early.notLate
  lock _ := .inr ⟨token, rfl, claimed⟩
  record touched := absurd touched (lock_elsewhere k k)
  storing := nofun
  working := nofun
  leaving _ _ := leaving.stored

/-! How a key may stand when its callers come. -/

/-- Nobody holds the lock. The record is as others have left it: it is not there, or it lives and shows the pending text
or a result that every visitor can read. All that is told of the past is who wrote to it and when. -/
structure Opening (visits : Nat → Visit τ) (k : String) (life : Span) (v : Scene α (Except Failure τ)) : Prop where
  told : ∀ note ∈ v.past, (note.write? k).isSome = true
  ledger : Ledger k life v
  stands : Stands k v
  readable : ∀ write ∈ writes k v.past, write.text = Record.placeholder ∨ Readable visits write.text
  unlocked : v.lock = none

/-- A key that nobody has touched is such an opening, for there is nothing to be told of it. -/
theorem Opening.untouched (nobody : v.past = []) (free : v.record = none) (unlocked : v.lock = none) :
    Opening visits k life v where
  told := by simp [nobody]
  ledger := Ledger.start nobody free
  stands := by simp [Stands, writes, nobody]
  readable := by simp [writes, nobody]
  unlocked := unlocked

/-- A key that was issued at a time that is known, and whose record still lives, is such an opening: one write is noted,
of the pending text, and the record shows it. -/
theorem Opening.issued {time : Moment}
    (issued : v.past = [⟨i, time, .called (.setIfAbsent (recordKey k) Record.placeholder life) (.ok true)⟩])
    (ahead : time ≤ v.now) (lives : v.now.nanos < time.nanos + life.nanos)
    (shows : v.record = some ((⟨i, time, Record.placeholder⟩ : Write).entry life)) (unlocked : v.lock = none) :
    Opening visits k life v := by
  have all : writes k v.past = [⟨i, time, Record.placeholder⟩] := by simp [issued, writes, Note.write?]
  have live : v.now < ⟨time.nanos + life.nanos⟩ := lives
  have ledger : Ledger k life v := {
    standing := all ▸ .pending _ rfl
    before := by simpa [all] using ahead
    shows := by simp [shows, all, Write.entry, Entry.isLive, live, Option.filter] }
  exact {
    told := by simp [issued, Note.write?]
    ledger
    stands := by simp [Stands, shows]
    readable := by simp [all]
    unlocked }

/-- A note that tells nothing of the lock, of looks at the record and of operations. -/
structure Note.Plain (k : String) (note : Note (Except Failure τ)) : Prop where
  idle : Fenced.Idle k note
  unnamed : ∀ name, note.deed ≠ .named name
  unlooked : ∀ i, note.isLook k i = false
  unworked : ¬ note.isWork

/-- A note of what was written to the record tells of nothing else, for it is of a call at the record that sets its text. -/
theorem plain_of_write {note : Note (Except Failure τ)} (written : (note.write? k).isSome = true) : note.Plain k := by
  obtain ⟨i, time, deed⟩ := note
  obtain ⟨write, is⟩ := Option.isSome_iff_exists.mp written
  obtain ⟨-, c, reply, rfl, here, sets⟩ := Note.called_of_write is
  exact {
    idle := Fenced.idle_of_elsewhere (by rw [here]; exact fun same => recordKey_ne_lockKey k k (Option.some.inj same))
      reply time
    unnamed := fun name named => by cases named
    unlooked := fun j => by cases c <;> cases sets <;> rfl
    unworked := fun ⟨answer, works⟩ => by cases works }

/-- The invariant holds at an opening, whatever was written before: as nothing else is told of the past, there is no claim
on the lock and nobody has succeeded. -/
theorem Opening.exclusive (opening : Opening visits k life v) : Exclusive visits k life v := by
  have plain (note : Note (Except Failure τ)) (noted : note ∈ v.past) : note.Plain k :=
    plain_of_write (opening.told note noted)
  have unclaimed : claims k v.past = [] := List.filterMap_eq_nil_iff.mpr fun note noted => (plain note noted).idle.unclaimed
  exact {
    fenced := Fenced.untouched opening.unlocked (fun note noted => (plain note noted).idle)
      fun note noted => (plain note noted).unnamed
    inTime := by simp [InTime, unclaimed]
    ledger := opening.ledger
    stands := opening.stands
    readable := opening.readable
    won := fun i ⟨note, noted, _, result, is⟩ => absurd ⟨_, is⟩ (plain note noted).unworked
    order := List.pairwise_of_forall_mem_list fun later noted _ _ works => absurd works (plain later noted).unworked }

/-- When its callers come nobody has looked at the record yet, as all that is noted are writes. -/
theorem Opening.unlooked (opening : Opening visits k life v) (i : Nat) : ¬ HasLooked k i v.past := by
  rintro ⟨note, noted, look⟩
  rw [(plain_of_write (opening.told note noted)).unlooked i] at look
  cases look

/-- When its callers come nobody has succeeded yet, as no operation is noted. -/
theorem Opening.unwon (opening : Opening visits k life v) (i : Nat) : ¬ HasWon i v.past := by
  rintro ⟨note, noted, _, result, is⟩
  exact (plain_of_write (opening.told note noted)).unworked ⟨_, is⟩

variable [TokenNumber α]

/-- A deed that is allowed and goes well keeps visitors apart. What it writes it may write by the rule of the record, a
result only under the lock; and what it runs runs under the lock, when nobody has succeeded. -/
theorem Exclusive.own {deed : Deed (Except Failure τ)} (exclusive : Exclusive visits k life v)
    (rule : OnceRule visits k life i v deed.doing) (did : Scene.Own k i deed v v') (inTime : InTime k v')
    (within : WithinLife k life v') : Exclusive visits k life v' := by
  have fenced : Fenced k v' := exclusive.fenced.own rule.lock did
  have ledger : Ledger k life v' := exclusive.ledger.own exclusive.stands rule.record did
  have readable : ∀ write ∈ writes k v'.past, write.text = Record.placeholder ∨ Readable visits write.text := by
    intro write written
    rcases Ledger.mem_own did written with old | new
    · exact exclusive.readable write old
    · obtain ⟨_, ⟨pending, _⟩ | ⟨_, replaced⟩⟩ := Ledger.write_of_rule rule.record new
      · exact .inl pending
      · exact .inr (rule.storing write.text (by rw [replaced]; rfl)).2
  exact {
    fenced := fenced
    inTime := inTime
    ledger := ledger
    stands := ledger.stands_of_withinLife within
    readable := readable
    won := won_own fenced did (fun works => (rule.working works).1) rule.leaving exclusive.won
    order := order_own did (fun works => (rule.working works).2) exclusive.order }

/-- A deed that is allowed leaves all others sheltered: nobody else's lock is given back, and as only the holder stores a
result, whoever holds the lock meets no result that it does not know of. -/
theorem Exclusive.sheltered {deed : Deed (Except Failure τ)} (exclusive : Exclusive visits k life v)
    (rule : OnceRule visits k life i v deed.doing) (did : Scene.Own k i deed v v') (fenced : Fenced k v')
    (other : j ≠ i) : Sheltered k j v v' where
  onward := did.onward other
  holding := holding_own fenced did fun same => absurd same other
  result holding result := by
    rw [did.past] at result
    refine hasResult_of_cons (fun write written => ?_) result
    obtain ⟨_, ⟨pending, _⟩ | ⟨_, replaced⟩⟩ := Ledger.write_of_rule rule.record written
    · exact pending
    · have mine := (rule.storing write.text (by rw [replaced]; rfl)).1
      exact absurd (exclusive.holder_unique holding mine) other

/-- The conduct of visitors with one key whom nothing disturbs. -/
def onceOnly (visits : Nat → Visit τ) (k : String) (life : Span) : Conduct α (Except Failure τ) where
  key := k
  fair move _ v' := move.Undisturbed visits k ∧ InTime k v' ∧ WithinLife k life v'
  inv := Exclusive visits k life
  may := OnceRule visits k life
  rely := Sheltered k
  onward _ _ _ moved := moved.onward
  rely_refl i v := { onward := .refl i v, holding := id, result := fun _ => id }
  rely_trans _ _ _ _ := Sheltered.trans
  own _ _ _ _ exclusive rule did := fun ⟨_, inTime, within⟩ =>
    have after := exclusive.own rule did inTime within
    ⟨after, fun _ other => exclusive.sheltered rule did after.fenced other⟩
  outside _ _ _ exclusive moved := fun ⟨⟨record, lock⟩, inTime, within⟩ =>
    ⟨exclusive.idle moved.past (exclusive.fenced.outside lock moved) (exclusive.ledger.outside record moved)
      inTime within, fun _ => sheltered_idle moved.past moved.onward⟩
  waited _ _ exclusive ahead := fun ⟨_, inTime, within⟩ =>
    ⟨exclusive.idle rfl (exclusive.fenced.waited ahead) (exclusive.ledger.waited ahead) inTime within,
      fun _ => sheltered_idle rfl (Scene.onward_waited ahead)⟩
  broke _ _ _ _ _ _ _ _ fair _ _ _ := fair.1.elim

end

/-- Whether a move is without mishaps, where operations give one certain result. -/
def isCalm (k result : String) : Move (Except Failure String) → Bool
  | .own _ (.called _ (.error _)) => false
  | .own _ (.broke _ _) => false
  | .own _ (.worked (.ok other)) => other = result
  | .outside c => decide (c.key? ≠ some (recordKey k) ∧ c.key? ≠ some (lockKey k))
  | _ => true

/-- What the check lets pass disturbs nobody. Calls that fail do not pass it, an operation gives the result that
serializes, and a call from outside is compared with the keys of record and lock. -/
theorem undisturbed_of_isCalm {visits : Nat → Visit String} {k result : String}
    {move : Move (Except Failure String)} (serializes : ∀ i, Serializes visits i result)
    (calm : isCalm k result move = true) : move.Undisturbed visits k := by
  match move, calm with
  | .own _ (.called _ (.ok _)), _ => trivial
  | .own _ (.named _), _ => trivial
  | .own _ (.worked (.error _)), _ => trivial
  | .own i (.worked (.ok other)), calm =>
    rw [show other = result from of_decide_eq_true calm]
    exact serializes i
  | .outside c, calm =>
    have spared : c.key? ≠ some (recordKey k) ∧ c.key? ≠ some (lockKey k) := of_decide_eq_true calm
    exact spared
  | .purge, _ => trivial
  | .wait _, _ => trivial

/-- Every visitor that takes texts can read this result, and stores it as such a text. -/
theorem serializes_paid {visits : Nat → Visit String} (texts : ∀ i, (visits i).codec = .text) (i : Nat) :
    Serializes visits i "paid" := by
  refine ⟨.text "paid", by rw [texts i]; rfl, .text "paid", read_of_keptText (by decide +kernel), fun j => ?_⟩
  exact ⟨"paid", by rw [texts j]; rfl⟩

end Turnstile
