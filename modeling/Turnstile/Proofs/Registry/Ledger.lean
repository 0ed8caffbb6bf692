import Turnstile.Registry
import Turnstile.Proofs.Crowd.Attempts
import Turnstile.Proofs.Record

/-!
The ledger of a key: what was ever written to its record.

Callers touch a record by looking at it, by creating it pending, and by putting a result in place of the pending
text. As long as the record stands, from the moment of its creation on, it is written to at most twice: once
pending, once with a result. The live record is always the last thing written.
-/

namespace Turnstile

variable {α ω : Type}

/-- Something that was written to a record. -/
structure Write where
  caller : Nat
  time : Moment
  text : String
  deriving DecidableEq

/-- The entry that something written leaves in the store, with the life of records. -/
def Write.entry (life : Span) (w : Write) : Entry α := ⟨.text w.text, ⟨w.time.nanos + life.nanos⟩⟩

/-- The text that a call may leave at its key. -/
def Call.text? : Call → Option String
  | .set _ text _ | .setIfAbsent _ text _ | .compareAndSet _ _ text _ => some text
  | _ => none

/-- What a note tells to have been written to a key's record. -/
def Note.write? (k : String) (note : Note ω) : Option Write :=
  match note.deed with
  | .called (.setIfAbsent key text _) (.ok true) =>
    if key = recordKey k then some ⟨note.caller, note.time, text⟩ else none
  | .called (.compareAndSet key _ text _) (.ok true) =>
    if key = recordKey k then some ⟨note.caller, note.time, text⟩ else none
  | _ => none

/-- All that was written to a key's record, last first. -/
def writes (k : String) (past : List (Note ω)) : List Write := past.filterMap (Note.write? k)

/-- What is written to a record is written by a call at it that sets its text: one that created the record or one that replaced
what it held. -/
theorem Note.called_of_write {k : String} {note : Note ω} {write : Write} (written : note.write? k = some write) :
    write.caller = note.caller ∧ ∃ c reply, note.deed = .called c reply ∧ c.key? = some (recordKey k) ∧
      c.text? = some write.text := by
  unfold Note.write? at written
  split at written
  · rename_i key text life is
    split at written
    · rename_i here
      cases written
      exact ⟨rfl, _, _, is, congrArg some here, rfl⟩
    · cases written
  · rename_i key expected text life is
    split at written
    · rename_i here
      cases written
      exact ⟨rfl, _, _, is, congrArg some here, rfl⟩
    · cases written
  · cases written

/-- What was written to a record that stood from its creation on. -/
inductive Standing : List Write → Prop
  | nothing : Standing []
  | pending (first : Write) (created : first.text = Record.placeholder) : Standing [first]
  | resolved (last first : Write) (created : first.text = Record.placeholder)
      (result : last.text ≠ Record.placeholder) (order : first.time ≤ last.time) : Standing [last, first]

/-- A result that was written is the last thing written: a record is written twice at most, first as pending and then
with its result. -/
theorem Standing.head_of_result {all : List Write} {write : Write} (standing : Standing all) (written : write ∈ all)
    (result : write.text ≠ Record.placeholder) : all.head? = some write := by
  cases standing with
  | nothing => cases written
  | pending first created =>
    rw [List.mem_singleton.mp written] at result
    exact absurd created result
  | resolved last first created _ _ =>
    rcases List.mem_cons.mp written with same | older
    · rw [same]
      rfl
    · rw [List.mem_singleton.mp older] at result
      exact absurd created result

/-- How a record may be touched: by looking at it, creating it and replacing it. -/
def TouchRule (k : String) : Doing → Prop
  | .calling c => c.key? = some (recordKey k) →
      c = .get (recordKey k) ∨ (∃ text life, c = .setIfAbsent (recordKey k) text life) ∨
        ∃ expected text life, c = .compareAndSet (recordKey k) expected text life
  | _ => True

/-- How a record may be touched while it stands. -/
def RecordRule (k : String) (life : Span) : Doing → Prop
  | .calling c => c.key? = some (recordKey k) →
      c = .get (recordKey k) ∨ c = .setIfAbsent (recordKey k) Record.placeholder life ∨
        ∃ text, c = .compareAndSet (recordKey k) Record.placeholder text life ∧ text ≠ Record.placeholder
  | _ => True

/-- Whoever follows the rule of the record touches it in one of three ways only: by looking at it, by creating it and by
swapping its text. -/
theorem RecordRule.touches {k : String} {life : Span} {doing : Doing} (rule : RecordRule k life doing) :
    TouchRule k doing := by
  cases doing with
  | calling c =>
    intro touched
    rcases rule touched with rfl | rfl | ⟨text, rfl, _⟩
    · exact .inl rfl
    · exact .inr (.inl ⟨_, _, rfl⟩)
    · exact .inr (.inr ⟨_, _, _, rfl⟩)
  | _ => trivial

/-- A record that has been created is there. -/
def Stands (k : String) (v : Scene α ω) : Prop := writes k v.past ≠ [] → v.record.isSome = true

instance (k : String) (v : Scene α ω) : Decidable (Stands k v) :=
  inferInstanceAs (Decidable (_ → _))

/-- What holds of a record and the notes of it. -/
structure Ledger (k : String) (life : Span) (v : Scene α ω) : Prop where
  standing : Standing (writes k v.past)
  before : ∀ write ∈ writes k v.past, write.time ≤ v.now
  /-- The live record is the last thing written, until it expires. -/
  shows : v.record = ((writes k v.past).head?.map (Write.entry life)).filter (·.isLive v.now)

namespace Ledger

variable {v v' : Scene α ω} {k : String} {life : Span} {i : Nat}

/-- Before anybody writes to it there is no record, and so the ledger is empty. -/
theorem start (nothing : v.past = []) (free : v.record = none) : Ledger k life v := by
  have unwritten : writes k v.past = [] := by simp only [writes, nothing, List.filterMap_nil]
  exact {
    standing := unwritten ▸ .nothing
    before := by simp [unwritten]
    shows := by simp [unwritten, free] }

/-- A note that writes nothing leaves the ledger as it was. -/
theorem writes_cons {note : Note ω} (past : List (Note ω)) (unwritten : note.write? k = none) :
    writes k (note :: past) = writes k past := by
  simp [writes, unwritten]

/-- A call that failed has written nothing, whatever it was: the store may have been changed by others only. -/
theorem unwritten_of_failed (c : Call) (why : Failure) (time : Moment) :
    (⟨i, time, .called c (.error why)⟩ : Note ω).write? k = none := by
  cases c <;> rfl

/-- A call at another key writes nothing to the record. For the two calls that carry a text the keys are compared, and
all others write none. -/
theorem unwritten_of_elsewhere {c : Call} (elsewhere : c.key? ≠ some (recordKey k))
    (reply : Except Failure c.Reply) (time : Moment) : (⟨i, time, .called c reply⟩ : Note ω).write? k = none := by
  cases reply with
  | error why => exact unwritten_of_failed c why time
  | ok reply =>
    cases c with
    | setIfAbsent key text life =>
      have other : key ≠ recordKey k := fun same => elsewhere (congrArg some same)
      cases reply <;> simp [Note.write?, other]
    | compareAndSet key expected text life =>
      have other : key ≠ recordKey k := fun same => elsewhere (congrArg some same)
      cases reply <;> simp [Note.write?, other]
    | _ => rfl

/-- What was written stays in the ledger, as notes are never taken back. -/
theorem mem_mono {past past' : List (Note ω)} (more : past ⊆ past') {write : Write}
    (written : write ∈ writes k past) : write ∈ writes k past' := by
  obtain ⟨note, noted, is⟩ := List.mem_filterMap.mp written
  exact List.mem_filterMap.mpr ⟨note, more noted, is⟩

/-- So a record that has been written to stays one. -/
theorem written_mono {past past' : List (Note ω)} (more : past ⊆ past') (written : writes k past ≠ []) :
    writes k past' ≠ [] := by
  obtain ⟨write, here⟩ := List.exists_mem_of_ne_nil _ written
  exact List.ne_nil_of_mem (mem_mono more here)

/-- While a record stands it shows what was written last. The ledger says so up to expiry, and a record that stands has
not expired. -/
theorem record_of_stands (ledger : Ledger k life v) (stands : Stands k v) :
    v.record = (writes k v.past).head?.map (Write.entry life) := by
  have shows := ledger.shows
  cases all : writes k v.past with
  | nil => rw [shows, all]; rfl
  | cons last rest =>
    have there := stands (by rw [all]; exact List.cons_ne_nil _ _)
    rw [shows, all] at there ⊢
    exact Option.filter_eq_some_iff.mpr ⟨rfl, by
      obtain ⟨e, is⟩ := Option.isSome_iff_exists.mp there
      obtain ⟨same, live⟩ := Option.filter_eq_some_iff.mp is
      cases same
      exact live⟩

/-- The text of a record that stands is what was written last, or there is none if nothing was written. -/
theorem text_of_stands (ledger : Ledger k life v) (stands : Stands k v) :
    v.record.bind Entry.text? = (writes k v.past).head?.map Write.text := by
  rw [ledger.record_of_stands stands]
  cases (writes k v.past).head? <;> rfl

/-- Time passes; the record shows until it expires. Nothing is written meanwhile, and all that was written lies in the
past still. -/
theorem waited {later : Moment} (ledger : Ledger k life v) (ahead : v.now ≤ later) :
    Ledger k life (v.waited later) where
  standing := ledger.standing
  before write written := Nat.le_trans (ledger.before write written) ahead
  shows := by
    simp only [Scene.waited]
    rw [ledger.shows]
    exact Store.filter_live _ ahead

variable [TokenNumber α]

/-- What a deed does to a record that is touched by the rule: it writes nothing, and then nothing but an expired
entry goes, or what it writes is there. -/
theorem record_of_deed {deed : Deed ω} (rule : TouchRule k deed.doing) (did : Scene.Own k i deed v v') :
    ((⟨i, v.now, deed⟩ : Note ω).write? k = none ∧
        (v'.record = v.record ∨ v'.record = v.record.filter (·.isLive v.now))) ∨
      ∃ write e, (⟨i, v.now, deed⟩ : Note ω).write? k = some write ∧ e.text? = some write.text ∧
        v'.record = (some e).filter (·.isLive v.now) := by
  have record := did.record
  cases deed with
  | broke c why => exact .inl ⟨rfl, .inl record⟩
  | named name => exact .inl ⟨rfl, .inl record⟩
  | worked answer => exact .inl ⟨rfl, .inl record⟩
  | called c reply =>
    by_cases touched : c.key? = some (recordKey k)
    · cases reply with
      | error why => exact .inl ⟨unwritten_of_failed c why v.now, .inl record⟩
      | ok reply =>
        obtain ⟨e, decided, shown⟩ := Deed.changes_at touched record
        rcases rule touched with rfl | ⟨text, life, rfl⟩ | ⟨expected, text, life, rfl⟩
        · rw [(Call.onEntry_get decided).2] at shown
          exact .inl ⟨rfl, .inr shown⟩
        · cases reply with
          | true =>
            obtain ⟨_, expires, _, rfl⟩ := Call.onEntry_set_true decided
            exact .inr ⟨⟨i, v.now, text⟩, _, by simp [Note.write?], rfl, shown⟩
          | false =>
            rw [(Call.onEntry_set_false decided).2] at shown
            exact .inl ⟨rfl, .inr shown⟩
        · cases reply with
          | true =>
            obtain ⟨_, expires, _, rfl⟩ := Call.onEntry_replace_true decided
            exact .inr ⟨⟨i, v.now, text⟩, _, by simp [Note.write?], rfl, shown⟩
          | false =>
            rw [(Call.onEntry_replace_false decided).2] at shown
            exact .inl ⟨rfl, .inr shown⟩
    · exact .inl ⟨unwritten_of_elsewhere touched reply v.now, .inl (Deed.changes_elsewhere touched record)⟩

/-- Under the rule of a record that stands, the pending text is written by creating the record and any other by
replacing the pending one. -/
theorem write_of_rule {deed : Deed ω} {time : Moment} {write : Write} (rule : RecordRule k life deed.doing)
    (is : (⟨i, time, deed⟩ : Note ω).write? k = some write) :
    write.caller = i ∧
      ((write.text = Record.placeholder ∧
          deed = .called (.setIfAbsent (recordKey k) Record.placeholder life) (.ok true)) ∨
        (write.text ≠ Record.placeholder ∧
          deed = .called (.compareAndSet (recordKey k) Record.placeholder write.text life) (.ok true))) := by
  cases deed with
  | broke c why => cases is
  | named name => cases is
  | worked answer => cases is
  | called c reply =>
    by_cases touched : c.key? = some (recordKey k)
    · cases reply with
      | error why => rw [unwritten_of_failed c why time] at is; cases is
      | ok reply =>
        rcases rule touched with rfl | rfl | ⟨text, rfl, result⟩
        · cases is
        · cases reply with
          | false => cases is
          | true =>
            simp only [Note.write?, if_true, Option.some.injEq] at is
            subst is
            exact ⟨rfl, .inl ⟨rfl, rfl⟩⟩
        · cases reply with
          | false => cases is
          | true =>
            simp only [Note.write?, if_true, Option.some.injEq] at is
            subst is
            exact ⟨rfl, .inr ⟨result, rfl⟩⟩
    · rw [unwritten_of_elsewhere touched reply time] at is
      cases is

/-- A deed that writes nothing keeps the ledger, if it leaves the record as it was or only drops it as expired; that the
record is live is asked for anyway. -/
theorem own_unwritten {deed : Deed ω} (ledger : Ledger k life v) (did : Scene.Own k i deed v v')
    (unwritten : (⟨i, v.now, deed⟩ : Note ω).write? k = none)
    (same : v'.record = v.record ∨ v'.record = v.record.filter (·.isLive v.now)) : Ledger k life v' := by
  have all : writes k v'.past = writes k v.past := by rw [did.past, writes_cons v.past unwritten]
  refine ⟨all ▸ ledger.standing, ?before, ?shows⟩
  case before =>
    rw [all, did.now]
    exact ledger.before
  case shows =>
    rw [all, did.now]
    rcases same with same | same
    · rw [same, ledger.shows]
    · rw [same, ledger.shows, Store.filter_live _ (Nat.le_refl _)]

/-- A record that is created is the first thing written, for a record that stood would have been seen by the store, and
it would have refused. -/
theorem own_created (stands : Stands k v)
    (did : Scene.Own k i (.called (.setIfAbsent (recordKey k) Record.placeholder life) (.ok true)) v v') :
    Ledger k life v' := by
  obtain ⟨e, decided, shown⟩ := Deed.changes_at rfl did.record
  obtain ⟨free, expires, reached, is⟩ := Call.onEntry_set_true decided
  have unwritten : writes k v.past = [] := by
    by_contra written
    have there := stands written
    rw [free] at there
    cases there
  have all : writes k v'.past = [⟨i, v.now, Record.placeholder⟩] := by
    have none : List.filterMap (Note.write? k) v.past = [] := unwritten
    simp [did.past, writes, Note.write?, none]
  refine ⟨all ▸ .pending _ rfl, ?before, ?shows⟩
  case before =>
    rw [all, did.now]
    exact fun write written => List.mem_singleton.mp written ▸ Nat.le_refl _
  case shows =>
    rw [all, did.now, shown, is]
    simp only [List.head?_cons, Option.map_some, Write.entry, ← Store.later_nanos reached]

/-- A result that is written replaces the pending text, and nothing else was written before: a second result would have
found the first one in its place. -/
theorem own_resolved {text : String} (ledger : Ledger k life v) (stands : Stands k v)
    (result : text ≠ Record.placeholder)
    (did : Scene.Own k i (.called (.compareAndSet (recordKey k) Record.placeholder text life) (.ok true)) v v') :
    Ledger k life v' := by
  obtain ⟨e, decided, shown⟩ := Deed.changes_at rfl did.record
  obtain ⟨expected, expires, reached, is⟩ := Call.onEntry_replace_true decided
  have pending : ∃ first, writes k v.past = [first] ∧ first.text = Record.placeholder := by
    have standing := ledger.standing
    rw [ledger.text_of_stands stands] at expected
    generalize writes k v.past = written at standing expected ⊢
    cases standing with
    | nothing => cases expected
    | pending first created => exact ⟨first, rfl, created⟩
    | resolved last first _ other _ => exact absurd (Option.some.inj expected) other
  obtain ⟨first, one, created⟩ := pending
  have all : writes k v'.past = [⟨i, v.now, text⟩, first] := by
    have before : List.filterMap (Note.write? k) v.past = [first] := one
    simp [did.past, writes, Note.write?, before]
  have order : first.time ≤ v.now := ledger.before first (by rw [one]; exact List.mem_singleton.mpr rfl)
  refine ⟨all ▸ .resolved _ first created result order, ?before, ?shows⟩
  case before =>
    rw [all, did.now]
    intro write written
    rcases List.mem_cons.mp written with new | old
    · exact new ▸ Nat.le_refl _
    · exact List.mem_singleton.mp old ▸ order
  case shows =>
    rw [all, did.now, shown, is]
    simp only [List.head?_cons, Option.map_some, Write.entry, ← Store.later_nanos reached]

/-- Whoever follows the rule of the record keeps its ledger. The rule leaves three kinds of deeds: those that write
nothing, those that create the record, and those that resolve it. -/
theorem own {deed : Deed ω} (ledger : Ledger k life v) (stands : Stands k v)
    (rule : RecordRule k life deed.doing) (did : Scene.Own k i deed v v') : Ledger k life v' := by
  rcases record_of_deed rule.touches did with ⟨unwritten, same⟩ | ⟨write, _, written, _, _⟩
  · exact ledger.own_unwritten did unwritten same
  · obtain ⟨_, ⟨_, rfl⟩ | ⟨result, rfl⟩⟩ := write_of_rule rule written
    · exact own_created stands did
    · exact ledger.own_resolved stands result did

/-- A call from outside that leaves the record alone keeps the ledger, as it is not among the notes. -/
theorem outside {c : Call} (ledger : Ledger k life v) (elsewhere : c.key? ≠ some (recordKey k))
    (moved : Scene.Outside k c v v') : Ledger k life v' := by
  obtain ⟨now, past, reply, record, _⟩ := moved
  have same : v'.record = v.record := Deed.changes_elsewhere elsewhere record
  exact {
    standing := past ▸ ledger.standing
    before := by
      rw [past, now]
      exact ledger.before
    shows := by
      rw [past, now, same]
      exact ledger.shows }

/-! What a caller learns from its calls. -/

/-- Whatever is in the ledger after a deed was there before or is written by the deed. This is how statements on all
that was written are kept step by step. -/
theorem mem_own {deed : Deed ω} (did : Scene.Own k i deed v v') {write : Write}
    (written : write ∈ writes k v'.past) :
    write ∈ writes k v.past ∨ (⟨i, v.now, deed⟩ : Note ω).write? k = some write := by
  obtain ⟨note, noted, is⟩ := List.mem_filterMap.mp written
  rw [did.past] at noted
  rcases List.mem_cons.mp noted with new | old
  · exact .inr (new ▸ is)
  · exact .inl (List.mem_filterMap.mpr ⟨note, old, is⟩)

/-- Who looks at a record that stands sees what was written last: the store answers with the text of the live entry. -/
theorem reply_of_get {reply : Option String} (ledger : Ledger k life v) (stands : Stands k v)
    (did : Scene.Own k i (.called (.get (recordKey k)) (.ok reply)) v v') :
    reply = (writes k v'.past).head?.map Write.text := by
  obtain ⟨e, decided, _⟩ := Deed.changes_at rfl did.record
  rw [(Call.onEntry_get decided).1, ledger.text_of_stands stands, did.past, writes_cons v.past rfl]

/-- Who tried to create a record knows that there is one. Either it was created just now, or the store refused because
it was there, and then somebody had written it. -/
theorem written_of_issue {text : String} {reply : Bool} (ledger : Ledger k life v) (stands : Stands k v)
    (did : Scene.Own k i (.called (.setIfAbsent (recordKey k) text life) (.ok reply)) v v') :
    writes k v'.past ≠ [] := by
  intro unwritten
  obtain ⟨e, decided, _⟩ := Deed.changes_at rfl did.record
  cases reply with
  | true =>
    rw [did.past] at unwritten
    simp [writes, Note.write?] at unwritten
  | false =>
    have there := (Call.onEntry_set_false decided).1
    have none : writes k v.past = [] := by rwa [did.past, writes_cons v.past rfl] at unwritten
    rw [ledger.record_of_stands stands, none] at there
    cases there

end Ledger

end Turnstile
