import Turnstile.Proofs.Bucket.Retry
import Turnstile.Proofs.Program.Play
import Turnstile.Proofs.Record.Reading
import Turnstile.Proofs.Registry.LifeCycle

/-!
Results that are read back.

Whoever resolves a key and has the store to itself stores the result, whether the record was pending or gone. What is
stored is a text, and a later look reads the result from that text. The main statement tells exactly when the look gives
what was resolved: the result may be of any size, with any strings in it, but it must leave a level of nesting for the
record around it. The writer does not count levels and the reader does. So a result that is nested too deeply is stored
like any other, and from then on every look at the key fails, until the record expires.

Otherwise the text stands for the result at any depth: results that differ have texts that differ, and none of them can be
exchanged for the placeholder.

Results with doubles in them are left out. That the members of objects are in the order of their names is how results come
here; the texts of all others are those of the sorted ones.
-/

namespace Turnstile

open Json (Value)

namespace Registry

/-- How a result is put in place of the placeholder by a caller that has the store to itself. -/
def resolving (g : Registry) (k : String) (result : Value) (s : Store Binary64) (now : Moment) :
    Store Binary64 × Exit (Except Failure Resolution) :=
  (g.resolve k result : Attempt Empty Resolution).run.play (Store.host now) s

/-- How a record is looked up by a caller that has the store to itself. -/
def looking (g : Registry) (k : String) (s : Store Binary64) (now : Moment) :
    Store Binary64 × Exit (Except Failure (Option Record)) :=
  (g.find? k : Attempt Empty (Option Record)).run.play (Store.host now) s

variable {g : Registry} {k : String} {v : Value} {s : Store Binary64} {now : Moment}

/-- A call that the live entry at its key decides is answered so, by a store that is sound and has room for its next
sweep; it is sound afterwards and sweeps as often. -/
theorem answers (sound : s.Sound) (sweeps : s.sweepInterval.FitsAfter now) {c : Call} {key : String}
    (touched : c.key? = some key) {e : Option (Entry Binary64)} {reply : c.Reply}
    (decided : c.onEntry now (s.live? now key) = .ok (e, reply)) :
    ∃ s', (Store.host now).call c s = (s', .ok (.ok reply)) ∧ s'.Sound ∧ s'.sweepInterval = s.sweepInterval ∧
      s'.live? now key = e.filter (·.isLive now) := by
  obtain ⟨_, room⟩ := sweeps.now (Nat.le_refl _)
  obtain ⟨s', performed, sound', interval, here, -⟩ := Store.perform_decided sound room touched decided
  exact ⟨s', performed, sound', interval, here⟩

/-- A look reads the text of the live entry, and what it tells is what that text reads as. -/
theorem looking_eq (sound : s.Sound) (sweeps : s.sweepInterval.FitsAfter now) :
    (g.looking k s now).2 = .finished (readRecord ((s.live? now (recordKey k)).bind Entry.text?)) := by
  obtain ⟨s', called, -⟩ := answers (c := .get (recordKey k)) sound sweeps rfl rfl
  exact congrArg Prod.snd (Program.play_call called)

/-- A record that is written expires when its life is over: the store adds its life to the time of writing. -/
theorem written_entry {record : Record} {expires : Moment} (reached : Store.later now g.life = .ok expires) :
    (⟨.text record.text, expires⟩ : Entry Binary64) = g.entry now record :=
  eq_entry rfl (Store.later_nanos reached)

/-- The exchange for the placeholder is made where the record is pending, so one call resolves the key. -/
theorem resolving_pending (sound : s.Sound) (sweeps : s.sweepInterval.FitsAfter now) (lives : g.life.FitsAfter now)
    (pending : (s.live? now (recordKey k)).bind Entry.text? = some Record.placeholder) :
    ∃ s', g.resolving k v s now = (s', .finished (.ok .stored)) ∧ s'.Sound ∧ s'.sweepInterval = s.sweepInterval ∧
      s'.live? now (recordKey k) = (some (g.entry now (.resolved v))).filter (·.isLive now) := by
  obtain ⟨expires, reached⟩ := lives.now (Nat.le_refl _)
  have decided : (Call.compareAndSet (recordKey k) Record.placeholder (Record.resolved v).text g.life).onEntry now
      (s.live? now (recordKey k)) = .ok (some (g.entry now (.resolved v)), true) := by
    rw [Call.onEntry, if_pos pending, reached, ← written_entry reached]
    rfl
  obtain ⟨s', called, kept⟩ := answers sound sweeps rfl decided
  exact ⟨s', (Program.play_call called).trans rfl, kept⟩

/-- Where there is no record the exchange is refused, a look finds nothing, and then the result is set. No call of
somebody else comes between, so nothing stands in its way. -/
theorem resolving_absent (sound : s.Sound) (sweeps : s.sweepInterval.FitsAfter now) (lives : g.life.FitsAfter now)
    (nothing : s.live? now (recordKey k) = none) :
    ∃ s', g.resolving k v s now = (s', .finished (.ok .stored)) ∧ s'.Sound ∧ s'.sweepInterval = s.sweepInterval ∧
      s'.live? now (recordKey k) = (some (g.entry now (.resolved v))).filter (·.isLive now) := by
  obtain ⟨expires, reached⟩ := lives.now (Nat.le_refl _)
  have refused : (Call.compareAndSet (recordKey k) Record.placeholder (Record.resolved v).text g.life).onEntry now
      (s.live? now (recordKey k)) = .ok (none, false) := by
    rw [nothing]
    rfl
  obtain ⟨s₁, exchange, sound₁, interval₁, here₁⟩ := answers sound sweeps rfl refused
  have finds : (Call.get (recordKey k)).onEntry now (s₁.live? now (recordKey k)) = .ok (none, none) := by
    rw [here₁]
    rfl
  obtain ⟨s₂, look, sound₂, interval₂, here₂⟩ := answers sound₁ (interval₁ ▸ sweeps) rfl finds
  have sets : (Call.setIfAbsent (recordKey k) (Record.resolved v).text g.life).onEntry now
      (s₂.live? now (recordKey k)) = .ok (some (g.entry now (.resolved v)), true) := by
    rw [here₂, Option.filter_none, Call.onEntry, if_neg (by decide), reached, ← written_entry reached]
    rfl
  obtain ⟨s', set, sound', interval, here⟩ := answers sound₂ (interval₂ ▸ interval₁ ▸ sweeps) rfl sets
  refine ⟨s', ?_, sound', interval.trans (interval₂.trans interval₁), here⟩
  exact (Program.play_call exchange).trans ((Program.play_call look).trans ((Program.play_call set).trans rfl))

/-- A result is stored where the record is pending, and where there is none. -/
theorem resolving_stores (sound : s.Sound) (sweeps : s.sweepInterval.FitsAfter now) (lives : g.life.FitsAfter now)
    (unresolved : ∀ e, s.live? now (recordKey k) = some e → e.text? = some Record.placeholder) :
    ∃ s', g.resolving k v s now = (s', .finished (.ok .stored)) ∧ s'.Sound ∧ s'.sweepInterval = s.sweepInterval ∧
      s'.live? now (recordKey k) = (some (g.entry now (.resolved v))).filter (·.isLive now) := by
  cases there : s.live? now (recordKey k) with
  | none => exact resolving_absent sound sweeps lives there
  | some e => exact resolving_pending sound sweeps lives (by rw [there, Option.bind_some, unresolved e there])

/-- A record that was written shows until it expires, whatever is asked of other keys meanwhile or not at all. -/
theorem shows_later {record : Record} {later : Moment}
    (written : s.live? now (recordKey k) = (some (g.entry now record)).filter (·.isLive now)) (ahead : now ≤ later)
    (unexpired : later.nanos < now.nanos + g.life.nanos) : s.live? later (recordKey k) = some (g.entry now record) := by
  have ahead' : now.nanos ≤ later.nanos := ahead
  have live : (g.entry now record : Entry Binary64).isLive later = true := decide_eq_true unexpired
  rw [Store.live?_later s ahead, written, filter_entry, if_pos (by omega), Option.filter_some, if_pos live]

/-- An exchange that expects the placeholder does not find it in a record with a result, and leaves the record as it is. -/
theorem resolved_unexpected (sound : s.Sound) (sweeps : s.sweepInterval.FitsAfter now) {e : Entry Binary64}
    (there : s.live? now (recordKey k) = some e) (resolved : e.text? = some (Record.resolved v).text) (text : String)
    (life : Span) :
    ∃ s', s.perform now (.compareAndSet (recordKey k) Record.placeholder text life) = (s', .ok (.ok false)) ∧
      s'.live? now (recordKey k) = some e := by
  have other : ¬ (some e).bind Entry.text? = some Record.placeholder := by
    rw [Option.bind_some, resolved]
    exact fun same => Record.text_ne_placeholder v (Option.some.inj same)
  have refused : (Call.compareAndSet (recordKey k) Record.placeholder text life).onEntry now
      (s.live? now (recordKey k)) = .ok (some e, false) := by
    rw [there, Call.onEntry, if_neg other]
  obtain ⟨s', performed, -, -, here⟩ := answers sound sweeps rfl refused
  have same : s'.live? now (recordKey k) = s.live? now (recordKey k) := by
    rw [here, ← there]
    exact Store.filter_live _ (Nat.le_refl _)
  exact ⟨s', performed, same.trans there⟩

/-- What a look at a resolved record tells: the result, if that leaves a level for the record around it. Otherwise the
text is refused at the place where it is nested too deeply. -/
theorem looking_resolved (sound : s.Sound) (sweeps : s.sweepInterval.FitsAfter now) (plain : v.Plain)
    (inOrder : v.InOrder) {e : Entry Binary64} (there : s.live? now (recordKey k) = some e)
    (resolved : e.text? = some (Record.resolved v).text) :
    (v.levels + 1 < Json.depthLimit → (g.looking k s now).2 = .finished (.ok (some (.resolved v)))) ∧
      (Json.depthLimit ≤ v.levels + 1 →
        ∃ place, (g.looking k s now).2 = .finished (.error (.ofJson ⟨.tooDeep, some place⟩))) := by
  rw [looking_eq sound sweeps, there, Option.bind_some, resolved]
  constructor
  · intro shallow
    have reads := Record.read_text plain shallow
    rw [inOrder.sorted_eq] at reads
    simp only [readRecord, reads]
  · intro deep
    obtain ⟨place, refused⟩ := Record.read_text_deep plain inOrder deep
    exact ⟨place, by simp only [readRecord, refused]⟩

/-- A result is read back exactly if it leaves a level for the record around it. Take any sound store in which the record
of a key is pending or absent, with room for a record and for the sweeps until some last moment, and any result without
doubles. Resolving the key stores the result. Until the record expires, whoever looks it up gets exactly this result if
it is nested at most `Json.depthLimit - 2` deep, and otherwise a failure that says that it is nested too deeply. However
deep it is nested, nobody who expects the placeholder finds it there, its text is not the placeholder, and no other
result has the same text. -/
theorem results_are_read_back_iff_shallow {last : Moment} (sound : s.Sound) (sweeps : s.sweepInterval.FitsAfter last)
    (soon : now ≤ last) (lives : g.life.FitsAfter now) (plain : v.Plain) (inOrder : v.InOrder)
    (unresolved : ∀ e, s.live? now (recordKey k) = some e → e.text? = some Record.placeholder) :
    ∃ s', g.resolving k v s now = (s', .finished (.ok .stored)) ∧
      (∀ later, now ≤ later → later ≤ last → later.nanos < now.nanos + g.life.nanos →
        ((g.looking k s' later).2 = .finished (.ok (some (.resolved v))) ↔ v.levels + 1 < Json.depthLimit) ∧
        (Json.depthLimit ≤ v.levels + 1 →
          ∃ place, (g.looking k s' later).2 = .finished (.error (.ofJson ⟨.tooDeep, some place⟩))) ∧
        ∀ text life, ∃ s'', s'.perform later (.compareAndSet (recordKey k) Record.placeholder text life) =
          (s'', .ok (.ok false)) ∧ s''.live? later (recordKey k) = s'.live? later (recordKey k)) ∧
      (Record.resolved v).text ≠ Record.placeholder ∧
      ∀ w : Value, w.Plain → w.InOrder → (Record.resolved w).text = (Record.resolved v).text → w = v := by
  obtain ⟨s', resolves, sound', interval, written⟩ :=
    resolving_stores (v := v) sound (sweeps.earlier soon) lives unresolved
  refine ⟨s', resolves, ?_, Record.text_ne_placeholder v, ?_⟩
  · intro later ahead within unexpired
    have there := shows_later written ahead unexpired
    have sweeps' : s'.sweepInterval.FitsAfter later := interval ▸ sweeps.earlier within
    obtain ⟨shallow, deep⟩ := looking_resolved (g := g) sound' sweeps' plain inOrder there rfl
    refine ⟨⟨?_, shallow⟩, deep, ?_⟩
    · intro read
      by_contra tooDeep
      obtain ⟨place, refused⟩ := deep (Nat.not_lt.mp tooDeep)
      rw [read] at refused
      cases refused
    · rw [there]
      exact resolved_unexpected sound' sweeps' there rfl
  · intro w plain' inOrder' same
    rw [← inOrder.sorted_eq, ← inOrder'.sorted_eq]
    exact Record.text_injective plain' plain same

/-- A store in which a key was issued, to be kept for a day. -/
def issued : Store Binary64 :=
  (untouched.perform ⟨0⟩ (.setIfAbsent (recordKey "k1") Record.placeholder (.ofSeconds 86400))).1

/-- A store with one issued key is sound, and the record that shows there is pending. -/
theorem issued_pending : issued.Sound ∧
    ∀ e, issued.live? ⟨0⟩ (recordKey "k1") = some e → e.text? = some Record.placeholder := by
  refine ⟨⟨rfl, ?_⟩, ?_⟩
  · exact List.nodup_singleton _
  · intro e there
    cases there
    rfl

/-- A single value in as many arrays. -/
def nested : Nat → Value
  | 0 => .null
  | n + 1 => .array [nested n]

/-- Nested arrays hold nothing that would be written in another way than it is. -/
theorem nested_plain (n : Nat) : (nested n).Plain := by
  induction n with
  | zero => trivial
  | succ n inductionHypothesis => exact ⟨inductionHypothesis, trivial⟩

/-- They have no members, so their members are in order. -/
theorem nested_inOrder (n : Nat) : (nested n).InOrder := by
  induction n with
  | zero => exact .whole _ nofun (fun _ here => by cases here)
  | succ n inductionHypothesis =>
    refine .whole _ nofun fun part here => ?_
    obtain rfl := List.mem_singleton.mp here
    exact inductionHypothesis

/-- They are nested as deeply as the number says. -/
theorem nested_levels (n : Nat) : (nested n).levels = n := by
  induction n with
  | zero => rfl
  | succ n inductionHypothesis => simp [nested, Value.levels, Value.itemsLevels, inductionHypothesis]

/-- The deepest nesting that is read back, a nanosecond before the record expires: with the record around it that is one
level below the limit. -/
theorem results_are_read_back_iff_shallow_nested : ∃ s',
    (⟨.ofSeconds 86400⟩ : Registry).resolving "k1" (nested 126) issued ⟨0⟩ = (s', .finished (.ok .stored)) ∧
      ((⟨.ofSeconds 86400⟩ : Registry).looking "k1" s' ⟨86399999999999⟩).2 =
        .finished (.ok (some (.resolved (nested 126)))) := by
  have sweeps : issued.sweepInterval.FitsAfter ⟨86400000000000⟩ := by decide
  obtain ⟨s', resolves, found, -⟩ := results_are_read_back_iff_shallow (g := ⟨.ofSeconds 86400⟩) (v := nested 126)
    issued_pending.1 sweeps (by decide) (by decide) (nested_plain 126) (nested_inOrder 126) issued_pending.2
  have read := (found ⟨86399999999999⟩ (by decide) (by decide) (by decide)).1
  exact ⟨s', resolves, read.mpr (by rw [nested_levels]; decide)⟩

/-- With one array more the result is stored and is not read back, although it was accepted without an error. -/
theorem results_are_lost_nested :
    (nested 127).Plain ∧ (nested 127).InOrder ∧ ∃ s',
      (⟨.ofSeconds 86400⟩ : Registry).resolving "k1" (nested 127) issued ⟨0⟩ = (s', .finished (.ok .stored)) ∧
        ((⟨.ofSeconds 86400⟩ : Registry).looking "k1" s' ⟨0⟩).2 ≠ .finished (.ok (some (.resolved (nested 127)))) := by
  have sweeps : issued.sweepInterval.FitsAfter ⟨0⟩ := by decide
  obtain ⟨s', resolves, sound, interval, written⟩ := resolving_stores (g := ⟨.ofSeconds 86400⟩) (v := nested 127)
    issued_pending.1 sweeps (by decide) issued_pending.2
  have there := shows_later written (Nat.le_refl _) (by decide)
  obtain ⟨place, refused⟩ := (looking_resolved (g := ⟨.ofSeconds 86400⟩) sound (interval ▸ sweeps) (nested_plain 127)
    (nested_inOrder 127) there rfl).2 (by rw [nested_levels]; decide)
  refine ⟨nested_plain 127, nested_inOrder 127, s', resolves, ?_⟩
  rw [refused]
  rintro ⟨⟩

end Registry

end Turnstile
