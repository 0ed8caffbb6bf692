import Turnstile.Proofs.Guard.Errand
import Turnstile.Proofs.Record

/-!
The life of a record.

Callers on errands about any keys take their steps in any order, calls fail, the store is swept and time passes. A
record is then always pending, or it carries a result that was passed to the resolution of its key. It comes to be
pending or with a result, a result takes the place of the pending text once, and each of these writes sets its end of
life anew. It goes by an eviction or at its end of life. A record with a result stays as it is until then.
-/

namespace Turnstile

variable {α τ : Type}

/-- The entry that a write leaves: the text of a record, for as long as records live. -/
def Registry.entry (r : Registry) (now : Moment) (record : Record) : Entry α :=
  ⟨.text record.text, ⟨now.nanos + r.life.nanos⟩⟩

/-- How one step may change the live record of a key. -/
inductive RecordStep (g : Guard) (errands : Nat → Errand τ) (k : String) (v : Scene α (Except Failure τ)) :
    Move (Except Failure τ) → Option (Entry α) → Option (Entry α) → Prop
  | kept (move : Move (Except Failure τ)) (e : Option (Entry α)) : RecordStep g errands k v move e e
  | issued (i : Nat) (deed : Deed (Except Failure τ)) :
      RecordStep g errands k v (.own i deed) none (some (g.registry.entry v.now .pending))
  | created (i : Nat) (deed : Deed (Except Failure τ)) (result : Json.Value)
      (passed : (errands i).Passes i v.past k result) :
      RecordStep g errands k v (.own i deed) none (some (g.registry.entry v.now (.resolved result)))
  | resolved (i : Nat) (deed : Deed (Except Failure τ)) (time : Moment) (result : Json.Value)
      (passed : (errands i).Passes i v.past k result) :
      RecordStep g errands k v (.own i deed) (some (g.registry.entry time .pending))
        (some (g.registry.entry v.now (.resolved result)))
  | evicted (i : Nat) (e : Entry α) (errand : errands i = .evict k) :
      RecordStep g errands k v (.own i (.called (.delete (recordKey k)) (.ok true))) (some e) none
  | expired (later : Moment) (e : Entry α) (ended : e.expires ≤ later) :
      RecordStep g errands k v (.wait later) (some e) none

/-- What the live record of a key is: pending, or a result that was passed to the resolution of the key. -/
def Living (g : Guard) (errands : Nat → Errand τ) (k : String) (v : Scene α (Except Failure τ)) : Prop :=
  ∀ e, v.record = some e → v.now < e.expires ∧ ∃ time record, e = g.registry.entry time record ∧ time ≤ v.now ∧
    ∀ result, record = .resolved result → ∃ i, (errands i).Passes i v.past k result

namespace Registry

variable {r : Registry} {now time : Moment} {record : Record}

/-- A record that shows the pending text is pending, since no result is written as that text. -/
theorem pending_of_text (pending : (r.entry time record : Entry α).text? = some Record.placeholder) :
    record = .pending := by
  cases record with
  | pending => rfl
  | resolved result => exact absurd (Option.some.inj pending) (Record.text_ne_placeholder result)

/-- An entry is told by its text and its end of life; nothing else is in it. -/
theorem eq_entry {e : Entry α} (text : e.text? = some record.text) (ends : e.expires.nanos = now.nanos + r.life.nanos) :
    e = r.entry now record := by
  obtain ⟨content, expires⟩ := e
  cases content with
  | text s =>
    obtain rfl : s = record.text := Option.some.inj text
    exact congrArg (fun nanos => (⟨.text record.text, ⟨nanos⟩⟩ : Entry α)) ends
  | bucket b => cases text

/-- What is written now is there, unless records have no life at all: then it has expired at the moment when it is
written. -/
theorem filter_entry (r : Registry) (now : Moment) (record : Record) :
    (some (r.entry now record : Entry α)).filter (·.isLive now) =
      if 0 < r.life.nanos then some (r.entry now record) else none := by
  by_cases lives : 0 < r.life.nanos
  · have live : (r.entry now record : Entry α).isLive now = true :=
      decide_eq_true (Nat.lt_add_of_pos_right lives : now.nanos < now.nanos + r.life.nanos)
    rw [if_pos lives, Option.filter_some, if_pos live]
  · have ended : ¬ (r.entry now record : Entry α).isLive now = true := by
      intro live
      exact lives (Nat.pos_of_lt_add_right (of_decide_eq_true live : now.nanos < now.nanos + r.life.nanos))
    rw [if_neg lives, Option.filter_some, if_neg ended]

end Registry

section

variable {g : Guard} {errands : Nat → Errand τ} {k : String} {i : Nat} {v v' : Scene α (Except Failure τ)}

/-- Before anybody writes to it there is no record, and so nothing that would have to come from somewhere. -/
theorem Living.start (free : v.record = none) : Living g errands k v := by
  intro e there
  rw [free] at there
  cases there

/-- The record stays as it is, or loses what has expired, while notes are added and time goes on. What is left of it was
written as it was before. -/
theorem Living.shrunk (living : Living g errands k v) (later : v.now ≤ v'.now) (more : v.past ⊆ v'.past)
    (same : v'.record = v.record.filter (·.isLive v'.now)) : Living g errands k v' := by
  intro e there
  rw [same] at there
  obtain ⟨before, live⟩ := Option.filter_eq_some_iff.mp there
  obtain ⟨-, time, record, is, written, passed⟩ := living e before
  refine ⟨of_decide_eq_true live, time, record, is, Nat.le_trans written later, fun result resolved => ?_⟩
  obtain ⟨i, passes⟩ := passed result resolved
  exact ⟨i, passes.mono more⟩

/-- A live record outlives no moment it is looked at, for it was live at that very moment. -/
theorem Living.filter (living : Living g errands k v) : v.record.filter (·.isLive v.now) = v.record := by
  cases there : v.record with
  | none => rfl
  | some e =>
    have live : e.isLive v.now = true := decide_eq_true (living e there).1
    rw [Option.filter_some, if_pos live]

/-- A record with a result stays in every step, unless it is evicted or at its end of life. The steps that write find it
pending or find none. -/
theorem RecordStep.of_result {move : Move (Except Failure τ)} {before after : Option (Entry α)} {time : Moment}
    {result : Json.Value} (step : RecordStep g errands k v move before after)
    (there : before = some (g.registry.entry time (.resolved result))) :
    after = before ∨
      (∃ i, move = .own i (.called (.delete (recordKey k)) (.ok true)) ∧ errands i = .evict k) ∨
        ∃ later, move = .wait later ∧ (g.registry.entry time (.resolved result) : Entry α).expires ≤ later := by
  cases step with
  | kept => exact .inl rfl
  | issued => cases there
  | created => cases there
  | resolved i deed time' result' passed =>
    have text := congrArg (·.bind Entry.text?) there
    exact absurd (Option.some.inj text).symm (Record.text_ne_placeholder result)
  | evicted i e errand => exact .inr (.inl ⟨i, rfl, errand⟩)
  | expired later e ended =>
    rw [Option.some.inj there] at ended
    exact .inr (.inr ⟨later, rfl, ended⟩)

variable [TokenNumber α]

/-- What a deed leaves when it writes a record: a result was passed by the caller's errand, and a pending record owes
nothing to anybody. -/
theorem Living.written {record : Record} {deed : Deed (Except Failure τ)} (did : Scene.Own k i deed v v')
    (wrote : v'.record = (some (g.registry.entry v.now record)).filter (·.isLive v.now))
    (passed : ∀ result, record = .resolved result → (errands i).Passes i v.past k result) :
    Living g errands k v' := by
  intro e there
  rw [wrote] at there
  obtain ⟨is, live⟩ := Option.filter_eq_some_iff.mp there
  refine ⟨?_, v.now, record, (Option.some.inj is).symm, ?_, fun result resolved => ?_⟩
  · rw [did.now]
    exact of_decide_eq_true live
  · rw [did.now]
    exact Nat.le_refl _
  · exact ⟨i, (passed result resolved).mono did.more⟩

/-- A deed that leaves the record alone is a step of its life, the one in which nothing happens. -/
theorem Living.idle {deed : Deed (Except Failure τ)} (living : Living g errands k v) (did : Scene.Own k i deed v v')
    (same : v'.record = v.record) :
    RecordStep g errands k v (.own i deed) v.record v'.record ∧ Living g errands k v' := by
  rw [same]
  refine ⟨.kept _ _, living.shrunk (Nat.le_of_eq (congrArg Moment.nanos did.now.symm)) did.more ?_⟩
  rw [same, did.now, living.filter]

/-- A write is the step that it is when records have a life, and is not seen at all otherwise. If there was a record
before, records have a life, or it would not have shown. -/
theorem Living.write {record : Record} {deed : Deed (Except Failure τ)} (did : Scene.Own k i deed v v')
    (wrote : v'.record = (some (g.registry.entry v.now record)).filter (·.isLive v.now))
    (passed : ∀ result, record = .resolved result → (errands i).Passes i v.past k result)
    (step : RecordStep g errands k v (.own i deed) v.record (some (g.registry.entry v.now record)))
    (lives : v.record ≠ none → 0 < g.registry.life.nanos) :
    RecordStep g errands k v (.own i deed) v.record v'.record ∧ Living g errands k v' := by
  refine ⟨?_, Living.written did wrote passed⟩
  rw [wrote, Registry.filter_entry]
  by_cases life : 0 < g.registry.life.nanos
  · rw [if_pos life]
    exact step
  · rw [if_neg life]
    have nothing : v.record = none := by
      by_contra there
      exact life (lives there)
    rw [nothing]
    exact .kept _ _

/-- A record, pending or not, is made where there is none. Where there is one the store refuses, and the record is kept. -/
theorem Living.set {reply : Bool} (living : Living g errands k v) (record : Record)
    (did : Scene.Own k i (.called (.setIfAbsent (recordKey k) record.text g.registry.life) (.ok reply)) v v')
    (passed : ∀ result, record = .resolved result → (errands i).Passes i v.past k result) :
    RecordStep g errands k v (.own i (.called (.setIfAbsent (recordKey k) record.text g.registry.life) (.ok reply)))
      v.record v'.record ∧ Living g errands k v' := by
  obtain ⟨e, decided, shown⟩ := Deed.changes_at rfl did.record
  cases reply with
  | false =>
    rw [(Call.onEntry_set_false decided).2, living.filter] at shown
    exact living.idle did shown
  | true =>
    obtain ⟨nothing, expires, reached, rfl⟩ := Call.onEntry_set_true decided
    have is : (⟨.text record.text, expires⟩ : Entry α) = g.registry.entry v.now record := by
      rw [Registry.entry, ← Store.later_nanos reached]
    refine Living.write did (is ▸ shown) passed ?_ fun there => absurd nothing there
    rw [nothing]
    cases record with
    | pending => exact .issued i _
    | resolved result => exact .created i _ result (passed result rfl)

/-- A result takes the place of the pending text and of nothing else. Anything else is refused, and then the record is
kept. -/
theorem Living.replace {result : Json.Value} {reply : Bool} (living : Living g errands k v)
    (did : Scene.Own k i (.called (.compareAndSet (recordKey k) Record.placeholder (Record.resolved result).text
      g.registry.life) (.ok reply)) v v')
    (passes : (errands i).Passes i v.past k result) :
    RecordStep g errands k v (.own i (.called (.compareAndSet (recordKey k) Record.placeholder
      (Record.resolved result).text g.registry.life) (.ok reply))) v.record v'.record ∧ Living g errands k v' := by
  obtain ⟨e, decided, shown⟩ := Deed.changes_at rfl did.record
  cases reply with
  | false =>
    rw [(Call.onEntry_replace_false decided).2, living.filter] at shown
    exact living.idle did shown
  | true =>
    obtain ⟨expected, expires, reached, rfl⟩ := Call.onEntry_replace_true decided
    obtain ⟨before, there, text⟩ := Option.bind_eq_some_iff.mp expected
    obtain ⟨live, time, record, rfl, written, -⟩ := living before there
    obtain rfl := Registry.pending_of_text text
    have is : (⟨.text (Record.resolved result).text, expires⟩ : Entry α) =
        g.registry.entry v.now (.resolved result) := by
      rw [Registry.entry, ← Store.later_nanos reached]
    -- What is pending now was written before and has not reached its end, so records have a life.
    have inside : v.now.nanos < time.nanos + g.registry.life.nanos := live
    have earlier : time.nanos ≤ v.now.nanos := written
    refine Living.write did (is ▸ shown) (fun other same => ?_) ?_ fun _ => by omega
    · cases same
      exact passes
    · rw [there]
      exact .resolved i _ time result passes

/-- An eviction: the record is gone, if there was one, and nothing that has to be accounted for is left. -/
theorem Living.evict {reply : Bool} (did : Scene.Own k i (.called (.delete (recordKey k)) (.ok reply)) v v')
    (errand : errands i = .evict k) :
    RecordStep g errands k v (.own i (.called (.delete (recordKey k)) (.ok reply))) v.record v'.record ∧
      Living g errands k v' := by
  obtain ⟨e, decided, shown⟩ := Deed.changes_at rfl did.record
  cases decided
  have gone : v'.record = none := shown
  refine ⟨?_, Living.start gone⟩
  rw [gone]
  cases there : v.record with
  | none => exact .kept _ _
  | some e =>
    simp only [Option.isSome_some]
    exact .evicted i e errand

/-- Whatever a caller does on its errand, the record takes a step of its life. The deeds that touch it are those that
`Errand.Calls.at_record` lists, and each has its lemma above. -/
theorem Living.own {deed : Deed (Except Failure τ)} (living : Living g errands k v)
    (allowed : (onErrands g errands k).may i v deed.doing) (did : Scene.Own k i deed v v') :
    RecordStep g errands k v (.own i deed) v.record v'.record ∧ Living g errands k v' := by
  cases deed with
  | broke c why => exact living.idle did did.record
  | named name => exact living.idle did did.record
  | worked answer => exact living.idle did did.record
  | called c reply =>
    by_cases touched : c.key? = some (recordKey k)
    · cases reply with
      | error why => exact living.idle did did.record
      | ok reply =>
        have calls : (errands i).Calls g i v.past c := allowed
        rcases calls.at_record touched with rfl | rfl | ⟨result, passes, rfl | rfl⟩ | ⟨errand, rfl⟩
        · obtain ⟨e, decided, shown⟩ := Deed.changes_at rfl did.record
          rw [(Call.onEntry_get decided).2, living.filter] at shown
          exact living.idle did shown
        · exact living.set .pending did fun result is => by cases is
        · exact living.replace did passes
        · refine living.set (.resolved result) did fun other same => ?_
          cases same
          exact passes
        · exact Living.evict did errand
    · exact living.idle did (Deed.changes_elsewhere touched did.record)

/-- A call from outside that leaves the record alone is no step of its life at all. -/
theorem Living.outside {c : Call} (living : Living g errands k v) (elsewhere : c.key? ≠ some (recordKey k))
    (moved : Scene.Outside k c v v') : v'.record = v.record ∧ Living g errands k v' := by
  obtain ⟨now, past, reply, record, -⟩ := moved
  have same : v'.record = v.record := Deed.changes_elsewhere elsewhere record
  refine ⟨same, living.shrunk (Nat.le_of_eq (congrArg Moment.nanos now.symm)) (past ▸ List.Subset.refl _) ?_⟩
  rw [same, now, living.filter]

/-- Every move keeps it: those of callers by the steps of their errands, those from outside by leaving the record alone,
and time by letting it expire. -/
theorem living_kept : (onErrands (α := α) g errands k).Keeps (Living g errands k) where
  own _ _ _ _ _ allowed did _ living := (living.own allowed did).2
  outside _ _ _ moved spares living := (living.outside spares moved).2
  waited _ _ ahead living := living.shrunk ahead (List.Subset.refl _) rfl

/-- Every move is a step of the record's life. It is a case for each kind of move: callers act on their errands, a purge
drops only what has expired, and waiting may let the record expire. -/
theorem Living.step {w w' : Crowd α (Except Failure τ) (Except Failure (Answer τ))} {move : Move (Except Failure τ)}
    (living : Living g errands k (w.scene k)) (step : w.Step move w') (spares : move.Spares (recordKey k))
    (distinct : w.store.entries.Distinct)
    (allowed : ∀ i deed, move = .own i deed → (onErrands g errands k).may i (w.scene k) deed.doing) :
    RecordStep g errands k (w.scene k) move (w.scene k).record (w'.scene k).record := by
  have moves := (step.moves distinct k).1
  cases move with
  | own i deed => exact (living.own (allowed i deed rfl) moves).1
  | outside c =>
    rw [(living.outside spares moves).1]
    exact .kept _ _
  | purge =>
    rw [show w'.scene k = w.scene k from moves]
    exact .kept _ _
  | wait later =>
    obtain ⟨-, same⟩ := moves
    rw [same]
    simp only [Scene.waited]
    cases there : (w.scene k).record with
    | none => exact .kept _ _
    | some e =>
      rw [Option.filter_some]
      split
      · exact .kept _ _
      · rename_i ended
        exact .expired later e (Nat.le_of_not_lt fun live => ended (decide_eq_true live))

/-- The record is as it was at some earlier moment, or has reached its end of life, or was evicted since then. -/
def StaysUntil (errands : Nat → Errand τ) (k : String) (e : Entry α) (base : List (Note (Except Failure τ)))
    (v : Scene α (Except Failure τ)) : Prop :=
  v.record = some e ∨ e.expires ≤ v.now ∨ ∃ news, v.past = news ++ base ∧ ∃ note ∈ news,
    errands note.caller = .evict k ∧ note.deed = .called (.delete (recordKey k)) (.ok true)

/-- A record that carries a result stays until it is evicted or at its end of life. While it is there the next step
keeps it or ends it in one of these ways; and once it is gone, how it went is noted for good. -/
theorem staysUntil_kept {time : Moment} {result : Json.Value} {base : List (Note (Except Failure τ))} :
    ((onErrands g errands k).keeping living_kept).Keeps fun v =>
      base <:+ v.past ∧ StaysUntil (α := α) errands k (g.registry.entry time (.resolved result)) base v where
  own i deed v v' invariant allowed did _ stays := by
    refine ⟨stays.1.trans did.suffix, ?_⟩
    rcases stays.2 with there | ended | ⟨news, all, note, noted, by', evicted⟩
    · rcases (invariant.2.own allowed did).1.of_result there with kept | ⟨j, is, errand⟩ | ⟨later, is, _⟩
      · exact .inl (kept.trans there)
      · cases is
        obtain ⟨news, all⟩ := stays.1
        refine .inr (.inr ⟨⟨i, v.now, _⟩ :: news, ?_, _, List.mem_cons_self, errand, rfl⟩)
        rw [did.past, ← all, List.cons_append]
      · cases is
    · exact .inr (.inl (did.now ▸ ended))
    · refine .inr (.inr ⟨⟨i, v.now, deed⟩ :: news, ?_, note, List.mem_cons_of_mem _ noted, by', evicted⟩)
      rw [did.past, all, List.cons_append]
  outside c v v' moved spares stays := by
    obtain ⟨now, past, reply, record, -⟩ := moved
    have same : v'.record = v.record := Deed.changes_elsewhere spares record
    unfold StaysUntil
    rw [same, now, past]
    exact stays
  waited later v ahead stays := by
    refine ⟨stays.1, ?_⟩
    rcases stays.2 with there | ended | evicted
    · simp only [StaysUntil, Scene.waited, there, Option.filter_some]
      split
      · exact .inl rfl
      · rename_i ended
        exact .inr (.inl (Nat.le_of_not_lt fun live => ended (decide_eq_true live)))
    · exact .inr (.inl (Nat.le_trans ended ahead))
    · exact .inr (.inr evicted)

/-- Callers on errands come to a record that is living, and still are on their errands, as the conduct is kept by every
step of the course. -/
theorem living_of_course {w w' : Crowd α (Except Failure τ) (Except Failure (Answer τ))} (g : Guard)
    (errands : Nat → Errand τ) (callers : ∀ i, w.callers i = (errands i).program g)
    (distinct : w.store.entries.Distinct) (free : w.store.live? w.now (recordKey k) = none)
    (course : Crowd.Course k (fun move _ _ => move.Spares (recordKey k)) w w') :
    w'.store.entries.Distinct ∧ Living g errands k (w'.scene k) ∧
      ∀ i, ((onErrands g errands k).keeping living_kept).Safe i (fun _ _ => True) (w'.callers i) (w'.scene k) := by
  have safe (i : Nat) : ((onErrands g errands k).keeping living_kept).Safe i (fun _ _ => True) (w.callers i)
      (w.scene k) := (errands_safe g errands callers i).keeping living_kept
  obtain ⟨distinct', ⟨-, living⟩, safe'⟩ :=
    ((onErrands g errands k).keeping living_kept).course_safe course distinct ⟨trivial, Living.start free⟩ safe
  exact ⟨distinct', living, safe'⟩

/-- Along every course of callers on errands about any keys: the live record of a key is pending or carries a result
that was passed to the resolution of the key; each step changes it as its life goes; and once it carries a result it
stays as it is, with its end of life, until it is evicted or that end is reached. -/
theorem record_goes_through_life {w w' : Crowd α (Except Failure τ) (Except Failure (Answer τ))} (g : Guard)
    (errands : Nat → Errand τ) (callers : ∀ i, w.callers i = (errands i).program g)
    (distinct : w.store.entries.Distinct) (free : w.store.live? w.now (recordKey k) = none)
    (course : Crowd.Course k (fun move _ _ => move.Spares (recordKey k)) w w') :
    (∀ e, w'.store.live? w'.now (recordKey k) = some e →
      ∃ time record, e = g.registry.entry time record ∧
        ∀ result, record = .resolved result → ∃ i, (errands i).Passes i w'.past k result) ∧
      (∀ move w'', w'.Step move w'' → move.Spares (recordKey k) →
        RecordStep g errands k (w'.scene k) move (w'.store.live? w'.now (recordKey k))
          (w''.store.live? w''.now (recordKey k))) ∧
      ∀ w'' time result, Crowd.Course k (fun move _ _ => move.Spares (recordKey k)) w' w'' →
        w'.store.live? w'.now (recordKey k) = some (g.registry.entry time (.resolved result)) →
          StaysUntil errands k (g.registry.entry time (.resolved result)) w'.past (w''.scene k) := by
  obtain ⟨distinct', living, safe'⟩ := living_of_course g errands callers distinct free course
  refine ⟨?_, ?_, ?_⟩
  · intro e there
    obtain ⟨-, time, record, is, -, passed⟩ := living e there
    exact ⟨time, record, is, passed⟩
  · intro move w'' step spares
    refine living.step step spares distinct' ?_
    rintro i deed rfl
    exact (safe' i).allowed ⟨trivial, living⟩ step
  · intro w'' time result onward there
    exact (Conduct.course_keeps staysUntil_kept onward distinct' ⟨trivial, living⟩ safe'
      ⟨List.suffix_refl _, .inl there⟩).2

end

/-- Somebody issues a key, two callers resolve it, and then it is evicted. -/
def resolvers : Nat → Errand String
  | 0 => .issue "order-1"
  | 1 => .resolve "order-1" (.text "paid")
  | 2 => .resolve "order-1" (.text "declined")
  | _ => .evict "order-1"

/-- The second resolution comes too late. -/
def resolvedTwice : List (Cue (Except Failure String)) := [.call 0, .call 1, .call 2, .call 2, .purge]

/-- In that run the second result is refused and the first one stays, also through a purge, until the fourth caller
evicts the key. -/
theorem record_goes_through_life_resolvedTwice :
    ∃ w' w'', (Crowd.atEmptyStore fun i => (resolvers i).program briefGuard).play "order-1"
        (fun move _ _ => decide (move.Spares (recordKey "order-1"))) resolvedTwice = some w' ∧
      w'.play "order-1" (fun move _ _ => decide (move.Spares (recordKey "order-1"))) [.wait 1000, .call 3] = some w'' ∧
      w'.store.live? w'.now (recordKey "order-1") =
        some (briefGuard.registry.entry ⟨0⟩ (.resolved (.text "paid"))) ∧
      (w''.store.live? w''.now (recordKey "order-1")).isNone = true ∧
      StaysUntil resolvers "order-1" (briefGuard.registry.entry ⟨0⟩ (.resolved (.text "paid"))) w'.past
        (w''.scene "order-1") := by
  have played : ((Crowd.atEmptyStore fun i => (resolvers i).program briefGuard).play "order-1"
      (fun move _ _ => decide (move.Spares (recordKey "order-1"))) resolvedTwice).map (fun w =>
        ((w.store.live? w.now (recordKey "order-1")).map fun e => (e.text?, e.expires.nanos),
          (w.play "order-1" (fun move _ _ => decide (move.Spares (recordKey "order-1"))) [.wait 1000, .call 3]).map
            fun w => (w.store.live? w.now (recordKey "order-1")).isNone)) =
      some (some (some (Record.resolved (.text "paid")).text, 10000000000), some true) := by decide +kernel
  obtain ⟨w', is, shown⟩ := Option.map_eq_some_iff.mp played
  obtain ⟨there, onward⟩ := Prod.mk.inj shown
  obtain ⟨w'', next, gone⟩ := Option.map_eq_some_iff.mp onward
  obtain ⟨e, live, told⟩ := Option.map_eq_some_iff.mp there
  obtain ⟨text, ends⟩ := Prod.mk.inj told
  obtain rfl : e = briefGuard.registry.entry ⟨0⟩ (.resolved (.text "paid")) := Registry.eq_entry text ends
  have sound (move : Move (Except Failure String)) (v v' : Scene Binary64 (Except Failure String))
      (passed : decide (move.Spares (recordKey "order-1")) = true) : move.Spares (recordKey "order-1") :=
    of_decide_eq_true passed
  obtain ⟨-, -, stays⟩ := record_goes_through_life briefGuard resolvers (fun _ => rfl) Table.distinct_empty rfl
    (Crowd.course_of_play sound is)
  exact ⟨w', w'', is, next, live, gone, stays w'' ⟨0⟩ (.text "paid") (Crowd.course_of_play sound next) live⟩

end Turnstile
