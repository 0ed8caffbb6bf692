import Turnstile.Proofs.Guard.Account
import Turnstile.Proofs.Guard.Errand

/-!
Where a result that is read comes from.

Guarded calls take their steps in any order. Others may issue the key, look it up and evict it, locks and records may run
out, and any call may fail; the one thing nobody outside does is to store a result. Then a result that is read from the
record is the one that was stored last before, by one of the callers, and what that caller stored is the encoded result of
its own operation.
-/

namespace Turnstile

variable {α ω τ : Type}

/-- Nobody outside the crowd stores a result in a key's record. The key may be issued, looked up and evicted. -/
def Move.StoresNone (k : String) : Move ω → Prop
  | .outside c => c.key? = some (recordKey k) → ∀ text ∈ c.text?, text = Record.placeholder
  | _ => True

instance (k : String) : DecidablePred (@Move.StoresNone ω k)
  | .outside c => inferInstanceAs (Decidable (c.key? = some (recordKey k) → ∀ text ∈ c.text?, text = Record.placeholder))
  | .own _ _ | .purge | .wait _ => .isTrue trivial

/-- The last result that was stored for a key. -/
def lastResult? (k : String) (past : List (Note ω)) : Option Write :=
  (writes k past).find? fun write => write.text ≠ Record.placeholder

/-- The last result is a result, and was written: it is found among the writes as the last that is not the pending text. -/
theorem written_of_lastResult {k : String} {past later earlier : List (Note ω)} {note : Note ω} {write : Write}
    (last : lastResult? k earlier = some write) (parts : past = later ++ note :: earlier) :
    write ∈ writes k past ∧ write.text ≠ Record.placeholder := by
  constructor
  · refine Ledger.mem_mono (fun note here => ?_) (List.mem_of_find?_eq_some last)
    rw [parts]
    exact List.mem_append_right _ (List.mem_cons_of_mem _ here)
  · have result := List.find?_some last
    exact of_decide_eq_true result

/-- A text of a record: the pending one, or that of the last result. -/
def IsLastText (k : String) (past : List (Note ω)) (text : String) : Prop :=
  text = Record.placeholder ∨ ∃ write, lastResult? k past = some write ∧ write.text = text

/-- What holds of a record that only guarded calls store results in. -/
structure Sourced (passages : Nat → Passage τ) (k : String) (v : Scene α (Except Failure τ)) : Prop where
  shows : ∀ e text, v.record = some e → e.text? = some text → IsLastText k v.past text
  given : ∀ write ∈ writes k v.past, write.text = Record.placeholder ∨
    ∃ value, (Errand.pass (passages write.caller)).Passes write.caller v.past k value ∧
      write.text = (Record.resolved value).text
  read : ∀ later note earlier text, v.past = later ++ note :: earlier →
    note.deed = .called (.get (recordKey k)) (.ok (some text)) → IsLastText k earlier text

section

variable {passages : Nat → Passage τ} {k : String} {g : Guard} {i : Nat} {v v' : Scene α (Except Failure τ)}

/-- Before anybody has done anything the record is pending, if there is one, and nothing was written or read. -/
theorem Sourced.start (nobody : v.past = []) (pending : ∀ e text, v.record = some e → e.text? = some text →
    text = Record.placeholder) : Sourced passages k v where
  shows e text there is := .inl (pending e text there is)
  given := by
    rw [nobody]
    intro write written
    cases written
  read later note earlier text parts := by
    rw [nobody] at parts
    simp at parts

/-- The callers make the calls of guarded calls only. -/
def sourcing [TokenNumber α] (g : Guard) (passages : Nat → Passage τ) (k : String) : Conduct α (Except Failure τ) :=
  .permitting k (fun move _ _ => move.StoresNone k)
    (fun
      | i, v, .calling c => (Errand.pass (passages i)).Calls g i v.past c
      | _, _, _ => True)
    fun _ _ => trivial

/-- What a guarded call does at a record is by the rule of touching it: it looks, creates or swaps, and it never evicts. -/
theorem touches_of_calls {past : List (Note (Except Failure τ))} {c : Call}
    (calls : (Errand.pass (passages i)).Calls g i past c) : TouchRule k (.calling c) := by
  intro touched
  rcases calls.at_record touched with rfl | rfl | ⟨result, -, rfl | rfl⟩ | ⟨evicts, -⟩
  · exact .inl rfl
  · exact .inr (.inl ⟨_, _, rfl⟩)
  · exact .inr (.inr ⟨_, _, _, rfl⟩)
  · exact .inr (.inl ⟨_, _, rfl⟩)
  · cases evicts

/-- What a guarded call writes to a record is the pending text, or what its own operation gave, since it has no other
result to pass. -/
theorem given_of_calls {past : List (Note (Except Failure τ))} {c : Call} {text : String}
    (calls : (Errand.pass (passages i)).Calls g i past c) (touched : c.key? = some (recordKey k))
    (leaves : c.text? = some text) : text = Record.placeholder ∨
      ∃ value, (Errand.pass (passages i)).Passes i past k value ∧ text = (Record.resolved value).text := by
  rcases calls.at_record touched with rfl | rfl | ⟨value, passes, rfl | rfl⟩ | ⟨-, rfl⟩
  · cases leaves
  · exact .inl (Option.some.inj leaves).symm
  · exact .inr ⟨value, passes, (Option.some.inj leaves).symm⟩
  · exact .inr ⟨value, passes, (Option.some.inj leaves).symm⟩
  · cases leaves

/-- A note that writes nothing leaves the last result what it was. -/
theorem isLastText_cons {past : List (Note ω)} {note : Note ω} {text : String} (unwritten : note.write? k = none)
    (last : IsLastText k past text) : IsLastText k (note :: past) text := by
  unfold IsLastText lastResult?
  rw [Ledger.writes_cons past unwritten]
  exact last

/-- What is written is the last text, if it is not the pending one; and the pending one is always allowed. -/
theorem isLastText_written {past : List (Note ω)} {note : Note ω} {write : Write} (written : note.write? k = some write) :
    IsLastText k (note :: past) write.text := by
  by_cases pending : write.text = Record.placeholder
  · exact .inl pending
  · refine .inr ⟨write, ?_, rfl⟩
    simp [lastResult?, writes, written, pending]

variable [TokenNumber α]

/-- The text that a call writes is the call's own. -/
theorem Call.text?_of_writes {c : Call} {value : String} {life : Span} (writes : c.writes? = some (value, life)) :
    c.text? = some value := by
  cases c <;> cases writes <;> rfl

/-- A text that a call leaves was there before, or it is the call's own. Every call keeps the entry, drops it, or puts
its text or a bucket there. -/
theorem Call.text_of_onEntry {c : Call} {now : Moment} {before after : Option (Entry α)} {reply : c.Reply} {text : String}
    (decided : c.onEntry now before = .ok (after, reply)) (shows : after.bind Entry.text? = some text) :
    before.bind Entry.text? = some text ∨ c.text? = some text := by
  cases leaves_of_onEntry decided with
  | kept => exact .inl shows
  | nothing => cases shows
  | written c value life expires writes reached =>
    cases shows
    exact .inr (text?_of_writes writes)
  | taken => cases shows

/-- A caller that keeps to its calls leaves the record with its last text. If it writes, that is the last one; if it
does not, the text was there before and the last result is the same. -/
theorem Sourced.shows_own {deed : Deed (Except Failure τ)} (sourced : Sourced passages k v)
    (allowed : (sourcing g passages k).may i v deed.doing) (did : Scene.Own k i deed v v') {e : Entry α} {text : String}
    (there : v'.record = some e) (shows : e.text? = some text) : IsLastText k v'.past text := by
  have rule : TouchRule k deed.doing := by
    cases deed with
    | called c reply => exact touches_of_calls allowed
    | broke c why => exact touches_of_calls allowed
    | named name => trivial
    | worked answer => trivial
  rw [did.past]
  rcases Ledger.record_of_deed rule did with ⟨unwritten, same⟩ | ⟨write, e', written, shown, is⟩
  · apply isLastText_cons unwritten
    rcases same with same | same
    · exact sourced.shows e text (same ▸ there) shows
    · exact sourced.shows e text (Option.filter_eq_some_iff.mp (same ▸ there)).1 shows
  · obtain ⟨same, -⟩ := Option.filter_eq_some_iff.mp (is ▸ there)
    cases same
    cases shown.symm.trans shows
    exact isLastText_written written

/-- A record that only guarded calls store results in stays one. What a caller writes its operation gave, what it reads
the record showed, and others from outside store none. -/
theorem sourced_kept : (sourcing (α := α) g passages k).Keeps (Sourced passages k) where
  own i deed v v' _ allowed did _ sourced := by
    refine ⟨?shows, ?given, ?read⟩
    case shows => exact fun e text there shows => sourced.shows_own allowed did there shows
    case given =>
      intro write written
      rcases Ledger.mem_own did written with old | new
      · rcases sourced.given write old with pending | ⟨value, passes, is⟩
        · exact .inl pending
        · exact .inr ⟨value, passes.mono did.more, is⟩
      · obtain ⟨mine, c, reply, is, touched, leaves⟩ := Note.called_of_write new
        cases is
        obtain rfl : write.caller = i := mine
        rcases given_of_calls allowed touched leaves with pending | ⟨value, passes, is⟩
        · exact .inl pending
        · exact .inr ⟨value, passes.mono did.more, is⟩
    case read =>
      intro later note earlier text parts is
      rw [did.past] at parts
      cases later with
      | nil =>
        -- The note is the new one, and what was read is what the record showed.
        cases parts
        cases is
        obtain ⟨e, decided, -⟩ := Deed.changes_at rfl did.record
        obtain ⟨before, there, shows⟩ := Option.bind_eq_some_iff.mp (Call.onEntry_get decided).1.symm
        exact sourced.shows before text there shows
      | cons first later => exact sourced.read later note earlier text (List.cons.inj parts).2 is
  outside c v v' moved spares sourced := by
    obtain ⟨-, past, reply, changes, -⟩ := moved
    refine { shows := fun e text there shows => ?_, given := past ▸ sourced.given, read := past ▸ sourced.read }
    rw [past]
    have untouched (same : v'.record = v.record) : IsLastText k v.past text :=
      sourced.shows e text (same ▸ there) shows
    by_cases touched : c.key? = some (recordKey k)
    · cases reply with
      | error why => exact untouched changes
      | ok reply =>
        obtain ⟨after, decided, is⟩ := Deed.changes_at touched changes
        have left : after = some e := (Option.filter_eq_some_iff.mp (is ▸ there)).1
        rcases Call.text_of_onEntry decided (by rw [left]; exact shows) with before | own
        · obtain ⟨e', there', shows'⟩ := Option.bind_eq_some_iff.mp before
          exact sourced.shows e' text there' shows'
        · exact .inl (spares touched text own)
    · exact untouched (Deed.changes_elsewhere touched changes)
  waited later v _ sourced :=
    { sourced with
      shows := fun e text there shows => sourced.shows e text (Option.filter_eq_some_iff.mp there).1 shows }

end

section

variable [TokenNumber α] {k : String} {passages : Nat → Passage τ}
  {w w' : Crowd α (Except Failure τ) (Except Failure (Guarded τ))}

/-- Along every course in which nobody outside stores a result, the record and what is read from it have their source:
guarded calls follow their conduct, which keeps that. -/
theorem sourced_course (g : Guard) (callers : ∀ i, w.callers i = (passages i).program g)
    (distinct : w.store.entries.Distinct) (sourced : Sourced passages k (w.scene k))
    (course : Crowd.Course k (fun move _ _ => move.StoresNone k) w w') : Sourced passages k (w'.scene k) := by
  have safe (i : Nat) : (sourcing g passages k).Safe i (fun _ _ => True) (w.callers i) (w.scene k) := by
    rw [callers]
    have permits : (sourcing (α := α) g passages k).Permits g i (.pass (passages i)) := {
      calls := fun _ _ _ calls => calls
      names := fun _ _ => trivial
      works := fun _ _ => trivial
      breaks := fun _ _ => trivial }
    exact Conduct.Safe.weaken (Conduct.lets_pass permits) fun _ _ _ _ => trivial
  exact Conduct.course_keeps sourced_kept course distinct trivial safe sourced

/-- Whoever has stored a result at a key returns it as its own. What became of the call is told by its account, and a
call that stored a result had it from its operation, which answers once only. -/
theorem own_of_write (g : Guard) (callers : ∀ i, w.callers i = (passages i).program g) (nobody : w.past = [])
    {fair : Move (Except Failure τ) → Scene α (Except Failure τ) → Scene α (Except Failure τ) → Prop}
    (course : Crowd.Course k fair w w') {write : Write} (written : write ∈ writes k w'.past)
    (result : write.text ≠ Record.placeholder) (presented : (passages write.caller).key = some k)
    {given : τ} {time : Moment} (gave : ⟨write.caller, time, .worked (.ok given)⟩ ∈ w'.past)
    {returned : Except Failure (Guarded τ)} (done : w'.callers write.caller = .done returned) :
    ∃ own, returned = .ok own ∧ own.replayed = false ∧ own.result = given := by
  obtain ⟨⟨caller, time', deed⟩, noted, is⟩ := List.mem_filterMap.mp written
  obtain ⟨mine, stores⟩ := Note.stores_of_write is result
  have leads := course.leadsTo nobody write.caller
  rw [callers, done] at leads
  have stored : deed ∈ Crowd.deedsOf write.caller w'.past := Crowd.mem_deedsOf.mpr ⟨time', mine ▸ noted⟩
  have worked := Crowd.mem_deedsOf.mpr ⟨time, gave⟩
  cases route : (passages write.caller).policy.origin with
  | none =>
    have charge := asksOnly_unguarded route _ _ leads deed stored
    rcases stores with ⟨-, ⟨life, rfl⟩ | ⟨expected, life, rfl⟩⟩ <;> cases charge _ rfl
  | some origin =>
    have account := account_passage route presented leads
    obtain ⟨other, told⟩ := account.stored deed stored write.text stores
    cases returned with
    | error why => cases told
    | ok own =>
      obtain ⟨same, foreign⟩ := Prod.mk.inj (Except.ok.inj told)
      have mineToo := (account.own other told).1
      have unique := (gated_of_leadsTo leads).answer_unique mineToo worked
      exact ⟨own, rfl, foreign, same.trans (Except.ok.inj unique)⟩

/-- A result that is replayed was read when another caller's result was the last one stored, and is decoded from it. That
caller returns the result as its own. -/
theorem source_of_replayed (g : Guard) (callers : ∀ i, w.callers i = (passages i).program g)
    (distinct : w.store.entries.Distinct) (nobody : w.past = [])
    (pending : ∀ e text, w.store.live? w.now (recordKey k) = some e → e.text? = some text → text = Record.placeholder)
    (course : Crowd.Course k (fun move _ _ => move.StoresNone k) w w') {j : Nat} {guarded : Guarded τ}
    (presented : (passages j).key = some k) (done : w'.callers j = .done (.ok guarded)) (replayed : guarded.replayed = true) :
    ∃ later time text earlier write, w'.past = later ++ ⟨j, time, .called (.get (recordKey k)) (.ok (some text))⟩ :: earlier ∧
      lastResult? k earlier = some write ∧ write.text = text ∧
        ∃ given value read, (∃ time, ⟨write.caller, time, .worked (.ok given)⟩ ∈ w'.past) ∧
          (passages write.caller).codec.encode given = .ok value ∧ text = (Record.resolved value).text ∧
            Record.read text = .ok (.resolved read) ∧ (passages j).codec.decode read = .ok guarded.result ∧
              ∀ returned, w'.callers write.caller = .done returned →
                ∃ own, returned = .ok own ∧ own.replayed = false ∧ own.result = given := by
  have sourced : Sourced passages k (w'.scene k) := sourced_course g callers distinct (.start nobody pending) course
  have leads := course.leadsTo nobody j
  rw [callers, done] at leads
  obtain ⟨origin, key, route, -⟩ := (returned_passage leads).replayed guarded rfl replayed
  have account := account_passage route presented leads
  obtain ⟨read, ⟨text, called, reads⟩, decoded⟩ := account.replayed guarded.result (by simp [Except.map, Guarded.told, replayed])
  obtain ⟨time, noted⟩ := Crowd.mem_deedsOf.mp called
  obtain ⟨later, earlier, parts⟩ := List.append_of_mem noted
  have unplaced : text ≠ Record.placeholder := by
    rintro rfl
    rw [Record.read_placeholder] at reads
    cases reads
  obtain ⟨write, last, same⟩ := (sourced.read later _ earlier text parts rfl).resolve_left unplaced
  have written : write ∈ writes k w'.past := (written_of_lastResult last parts).1
  obtain ⟨value, passes, is⟩ := (sourced.given write written).resolve_left (same ▸ unplaced)
  cases passes with
  | worked _ _ time' given _ mine gave encoded =>
    refine ⟨later, time, text, earlier, write, parts, last, same, given, value, read, ⟨time', gave⟩, encoded, same ▸ is, reads,
      decoded, fun returned finished => ?_⟩
    exact own_of_write g callers nobody course written (same ▸ unplaced) mine gave finished

end

end Turnstile
