import Mathlib.Logic.Function.Basic
import Turnstile.Proofs.Key
import Turnstile.Proofs.Store.View

/-!
Several callers over one store, in any order.

A crowd is a clock, a store, and a program for each caller. It moves by single steps: a caller takes the next
step of its program, somebody outside the crowd calls the store, or the clock goes on. Which step comes next is
open, so a statement about every course of a crowd is a statement about every interleaving at the granularity
of single calls. A caller that has not taken its first step has not come yet; there is no bound on how many
come. What the callers did is noted down with the time and the answers they got.

A scene is what a crowd shows of one idempotency key: the live entries of its record and of its lock, the time,
and the notes. The main statement is that every step of a crowd is a move of the scene, in which the store, its
sweeps and the entries at all other keys do not occur any more.
-/

namespace Turnstile

/-- What a caller did, with the answer it got. -/
inductive Deed (ω : Type) where
  | called (c : Call) (reply : Except Failure c.Reply)
  /-- The store broke down over a call. -/
  | broke (c : Call) (why : Breakdown)
  | named (name : String)
  | worked (answer : ω)

/-- A deed, who did it and when. -/
structure Note (ω : Type) where
  caller : Nat
  time : Moment
  deed : Deed ω

/-- What happens in one step. -/
inductive Move (ω : Type) where
  | own (i : Nat) (deed : Deed ω)
  /-- A call by somebody who is not in the crowd. -/
  | outside (c : Call)
  | purge
  | wait (later : Moment)

/-- Nobody outside the crowd touches a key of the store. -/
def Move.Spares {ω : Type} (key : String) : Move ω → Prop
  | .outside c => c.key? ≠ some key
  | _ => True

instance {ω : Type} (key : String) : DecidablePred (@Move.Spares ω key)
  | .outside c => inferInstanceAs (Decidable (c.key? ≠ some key))
  | .own _ _ | .purge | .wait _ => .isTrue trivial

/-- Callers over a store. -/
structure Crowd (α ω β : Type) where
  now : Moment
  store : Store α
  /-- What each caller still has to do. -/
  callers : Nat → Program ω β
  /-- What the callers did, last first. -/
  past : List (Note ω)

variable {α ω β : Type}

namespace Crowd

/-- The crowd when a caller has done something and goes on with the rest of its program. -/
def after (w : Crowd α ω β) (i : Nat) (deed : Deed ω) (rest : Program ω β) (store : Store α) :
    Crowd α ω β where
  now := w.now
  store
  callers := Function.update w.callers i rest
  past := ⟨i, w.now, deed⟩ :: w.past

/-- One step. A call is answered by the store, or fails without effect. A caller whose call makes the store
break down goes no further. -/
inductive Step [TokenNumber α] (w : Crowd α ω β) : Move ω → Crowd α ω β → Prop
  | answered (i : Nat) (held : Option Lease) (c : Call) (next : Except Failure c.Reply → Program ω β)
      (store : Store α) (reply : Except Failure c.Reply)
      (ready : w.callers i = .call held c next)
      (performed : w.store.perform w.now c = (store, .ok reply)) :
      Step w (.own i (.called c reply)) (w.after i (.called c reply) (next reply) store)
  | failed (i : Nat) (held : Option Lease) (c : Call) (next : Except Failure c.Reply → Program ω β)
      (why : Failure) (ready : w.callers i = .call held c next) :
      Step w (.own i (.called c (.error why))) (w.after i (.called c (.error why)) (next (.error why)) w.store)
  | broke (i : Nat) (held : Option Lease) (c : Call) (next : Except Failure c.Reply → Program ω β)
      (store : Store α) (why : Breakdown)
      (ready : w.callers i = .call held c next)
      (performed : w.store.perform w.now c = (store, .error why)) :
      Step w (.own i (.broke c why)) (w.after i (.broke c why) (.broken held why) store)
  | named (i : Nat) (next : String → Program ω β) (name : String)
      (ready : w.callers i = .fresh next) (new : ∀ note ∈ w.past, note.deed ≠ .named name) :
      Step w (.own i (.named name)) (w.after i (.named name) (next name) w.store)
  | worked (i : Nat) (held : Option Lease) (next : ω → Program ω β) (answer : ω)
      (ready : w.callers i = .work held next) :
      Step w (.own i (.worked answer)) (w.after i (.worked answer) (next answer) w.store)
  | outside (c : Call) : Step w (.outside c) { w with store := (w.store.perform w.now c).1 }
  | purge : Step w .purge { w with store := (w.store.purge w.now).1 }
  | wait (later : Moment) (ahead : w.now ≤ later) : Step w (.wait later) { w with now := later }

end Crowd

/-- What a crowd shows of one idempotency key. -/
structure Scene (α ω : Type) where
  now : Moment
  /-- The live entry of the key's record. -/
  record : Option (Entry α)
  /-- The live entry of the key's lock. -/
  lock : Option (Entry α)
  past : List (Note ω)

/-- What a crowd shows of a key. -/
def Crowd.scene (w : Crowd α ω β) (k : String) : Scene α ω where
  now := w.now
  record := w.store.live? w.now (recordKey k)
  lock := w.store.live? w.now (lockKey k)
  past := w.past

/-- How a deed changes the live entry at a key of the store. A call that failed changes nothing. -/
def Deed.Changes [TokenNumber α] (now : Moment) (key : String) :
    Deed ω → Option (Entry α) → Option (Entry α) → Prop
  | .called c (.ok reply), before, after =>
    if c.key? = some key then ∃ e, c.onEntry now before = .ok (e, reply) ∧ after = e.filter (·.isLive now)
    else after = before
  | _, before, after => after = before

/-- A call that is answered changes the entry at its key as it says, and what would expire at once does not show. -/
theorem Deed.changes_at [TokenNumber α] {now : Moment} {key : String} {c : Call} {reply : c.Reply}
    {before after : Option (Entry α)} (touched : c.key? = some key)
    (changes : (Deed.called c (.ok reply) : Deed ω).Changes now key before after) :
    ∃ e, c.onEntry now before = .ok (e, reply) ∧ after = e.filter (·.isLive now) := by
  simpa only [Changes, if_pos touched] using changes

/-- A call at another key changes nothing, and neither does one that failed. So the record of a key is told apart from
its lock by the key of a call alone. -/
theorem Deed.changes_elsewhere [TokenNumber α] {now : Moment} {key : String} {c : Call}
    {reply : Except Failure c.Reply} {before after : Option (Entry α)} (elsewhere : c.key? ≠ some key)
    (changes : (Deed.called c reply : Deed ω).Changes now key before after) : after = before := by
  cases reply with
  | error why => exact changes
  | ok reply => simpa only [Changes, if_neg elsewhere] using changes

/-- How a scene changes by a deed of a caller. -/
structure Scene.Own [TokenNumber α] (k : String) (i : Nat) (deed : Deed ω) (v v' : Scene α ω) : Prop where
  now : v'.now = v.now
  past : v'.past = ⟨i, v.now, deed⟩ :: v.past
  record : deed.Changes v.now (recordKey k) v.record v'.record
  lock : deed.Changes v.now (lockKey k) v.lock v'.lock
  /-- A name that is made up is nobody else's. -/
  new : ∀ name, deed = .named name → ∀ note ∈ v.past, note.deed ≠ .named name

/-- How a scene changes by a call from outside, whatever became of the call. -/
structure Scene.Outside [TokenNumber α] (k : String) (c : Call) (v v' : Scene α ω) : Prop where
  now : v'.now = v.now
  past : v'.past = v.past
  changes : ∃ reply : Except Failure c.Reply,
    (Deed.called c reply : Deed ω).Changes v.now (recordKey k) v.record v'.record ∧
      (Deed.called c reply : Deed ω).Changes v.now (lockKey k) v.lock v'.lock

/-- The scene when time has passed: what has expired is gone. -/
def Scene.waited (v : Scene α ω) (later : Moment) : Scene α ω where
  now := later
  record := v.record.filter (·.isLive later)
  lock := v.lock.filter (·.isLive later)
  past := v.past

/-- How a scene moves. -/
def Scene.Moves [TokenNumber α] (k : String) (v : Scene α ω) : Move ω → Scene α ω → Prop
  | .own i deed, v' => Own k i deed v v'
  | .outside c, v' => Outside k c v v'
  | .purge, v' => v' = v
  | .wait later, v' => v.now ≤ later ∧ v' = v.waited later

namespace Crowd

variable [TokenNumber α]

/-- A call that the store answers changes the live entry at each key as its deed says. A refusal leaves the entries, and
an answer changes its own key only. -/
theorem changes_of_answered {s s' : Store α} {now : Moment} {c : Call} {reply : Except Failure c.Reply}
    (distinct : s.entries.Distinct) (performed : s.perform now c = (s', .ok reply)) (key : String) :
    (Deed.called c reply : Deed ω).Changes now key (s.live? now key) (s'.live? now key) := by
  cases reply with
  | error why =>
    have same : s'.entries = s.entries :=
      Store.perform_unanswered performed (by intro reply; simp)
    simp only [Deed.Changes, Store.live?, same]
  | ok reply =>
    cases touched : c.key? with
    | none =>
      cases c <;> cases touched
      cases performed
      simp [Deed.Changes, Call.key?]
    | some touchedKey =>
      obtain ⟨e, decided, shown, elsewhere, _⟩ := Store.perform_answered touched distinct performed
      simp only [Deed.Changes, touched, Option.some.injEq]
      by_cases here : touchedKey = key
      · subst here
        rw [if_pos rfl]
        exact ⟨e, decided, shown⟩
      · rw [if_neg here]
        exact elsewhere key (Ne.symm here)

/-- A call over which the store breaks down leaves every entry, for entries are replaced only with an answer. -/
theorem live?_of_broke {s s' : Store α} {now : Moment} {c : Call} {why : Breakdown}
    (performed : s.perform now c = (s', .error why)) (key : String) : s'.live? now key = s.live? now key := by
  have same : s'.entries = s.entries := Store.perform_unanswered performed (by intro reply; simp)
  simp only [Store.live?, same]

/-- Keys stay apart through every call, whether it is answered, refused or breaks the store. -/
theorem distinct_of_performed {s : Store α} (distinct : s.entries.Distinct) (now : Moment) (c : Call) :
    (s.perform now c).1.entries.Distinct := by
  rcases performed : s.perform now c with ⟨s', outcome⟩
  by_cases answered : ∃ reply, outcome = .ok (.ok reply)
  · obtain ⟨reply, rfl⟩ := answered
    cases touched : c.key? with
    | none =>
      cases c <;> cases touched
      cases performed
      exact distinct
    | some key =>
      obtain ⟨_, _, _, _, kept⟩ := Store.perform_answered touched distinct performed
      exact kept
  · have same : s'.entries = s.entries :=
      Store.perform_unanswered performed (fun reply is => answered ⟨reply, is⟩)
    rw [same]
    exact distinct

/-- A deed that changes no entry shows at a key by its note alone, whatever its caller still has to do. -/
theorem own_quietly {w : Crowd α ω β} {i : Nat} (deed : Deed ω)
    (quiet : ∀ now key (e : Option (Entry α)), deed.Changes now key e e)
    (new : ∀ name, deed = .named name → ∀ note ∈ w.past, note.deed ≠ .named name) (k : String) (rest : Program ω β) :
    Scene.Own k i deed (w.scene k) ((w.after i deed rest w.store).scene k) where
  now := rfl
  past := rfl
  record := quiet _ _ _
  lock := quiet _ _ _
  new := new

/-- Every step of a crowd is a move of its scene, for every key, and keeps the keys of the store apart. So what is to be
proved of a key can be proved of scenes alone. -/
theorem Step.moves {w w' : Crowd α ω β} {move : Move ω} (step : w.Step move w')
    (distinct : w.store.entries.Distinct) (k : String) :
    (w.scene k).Moves k move (w'.scene k) ∧ w'.store.entries.Distinct := by
  cases step with
  | answered i held c next store reply ready performed =>
    have kept : store.entries.Distinct := by
      simpa only [performed] using distinct_of_performed distinct w.now c
    have own : Scene.Own k i (.called c reply) (w.scene k) ((w.after i (.called c reply) (next reply) store).scene k) := {
      now := rfl
      past := rfl
      record := changes_of_answered distinct performed _
      lock := changes_of_answered distinct performed _
      new := nofun }
    exact ⟨own, kept⟩
  | failed i held c next why ready =>
    exact ⟨own_quietly (.called c (.error why)) (fun _ _ _ => rfl) nofun k _, distinct⟩
  | broke i held c next store why ready performed =>
    have kept : store.entries.Distinct := by
      simpa only [performed] using distinct_of_performed distinct w.now c
    have own : Scene.Own k i (.broke c why) (w.scene k) ((w.after i (.broke c why) (.broken held why) store).scene k) := {
      now := rfl
      past := rfl
      record := live?_of_broke performed _
      lock := live?_of_broke performed _
      new := nofun }
    exact ⟨own, kept⟩
  | named i next name ready new =>
    refine ⟨own_quietly (.named name) (fun _ _ _ => rfl) (fun other is => ?_) k _, distinct⟩
    cases is
    exact new
  | worked i held next answer ready =>
    exact ⟨own_quietly (.worked answer) (fun _ _ _ => rfl) nofun k _, distinct⟩
  | outside c =>
    refine ⟨{ now := rfl, past := rfl, changes := ?_ }, distinct_of_performed distinct w.now c⟩
    rcases performed : w.store.perform w.now c with ⟨store, _ | reply⟩
    -- A breakdown leaves as much as a failure does, so it may be told as one.
    · refine ⟨.error (.internal ""), ?_, ?_⟩
      · simpa only [scene, performed, Deed.Changes] using live?_of_broke performed (recordKey k)
      · simpa only [scene, performed, Deed.Changes] using live?_of_broke performed (lockKey k)
    · refine ⟨reply, ?_, ?_⟩
      · simpa only [scene, performed] using changes_of_answered distinct performed (recordKey k)
      · simpa only [scene, performed] using changes_of_answered distinct performed (lockKey k)
  | purge =>
    obtain ⟨shown, kept⟩ := Store.purge_live w.store w.now distinct
    refine ⟨?_, kept⟩
    simp only [Scene.Moves, scene, shown]
  | wait later ahead =>
    refine ⟨⟨ahead, ?_⟩, distinct⟩
    simp only [scene, Scene.waited, Store.live?_later w.store ahead]

/-- A course: any number of steps, each of which is fair as far as it shows at the key. -/
inductive Course (k : String) (fair : Move ω → Scene α ω → Scene α ω → Prop) :
    Crowd α ω β → Crowd α ω β → Prop
  | start (w : Crowd α ω β) : Course k fair w w
  | step {w w' w'' : Crowd α ω β} {move : Move ω} (course : Course k fair w w')
      (step : w'.Step move w'') (kept : fair move (w'.scene k) (w''.scene k)) : Course k fair w w''

/-- A course that is fair as it shows at one key is fair as it shows at another, if its steps are. -/
theorem Course.imp {k k' : String} {fair fair' : Move ω → Scene α ω → Scene α ω → Prop} {w w' : Crowd α ω β}
    (course : Course k fair w w')
    (implies : ∀ {w₁ w₂ : Crowd α ω β} {move : Move ω}, fair move (w₁.scene k) (w₂.scene k) →
      fair' move (w₁.scene k') (w₂.scene k')) : Course k' fair' w w' := by
  induction course with
  | start => exact .start _
  | step _ step kept inductionHypothesis => exact .step inductionHypothesis step (implies kept)

end Crowd

/-- What may be left of a program: the part from one of its steps on. -/
inductive Program.Leaves {ω β : Type} : Program ω β → Program ω β → Prop
  | all (p : Program ω β) : Leaves p p
  | answered (held : Option Lease) (c : Call) (next : Except Failure c.Reply → Program ω β)
      (reply : Except Failure c.Reply) (q : Program ω β) (rest : Leaves (next reply) q) :
      Leaves (.call held c next) q
  | broke (held : Option Lease) (c : Call) (next : Except Failure c.Reply → Program ω β) (why : Breakdown) :
      Leaves (.call held c next) (.broken held why)
  | named (next : String → Program ω β) (name : String) (q : Program ω β) (rest : Leaves (next name) q) :
      Leaves (.fresh next) q
  | worked (held : Option Lease) (next : ω → Program ω β) (answer : ω) (q : Program ω β)
      (rest : Leaves (next answer) q) : Leaves (.work held next) q

/-- What is left of what is left is left of the whole program. -/
theorem Program.Leaves.trans {ω β : Type} {p q r : Program ω β} (first : Leaves p q) (second : Leaves q r) :
    Leaves p r := by
  induction first with
  | all => exact second
  | answered held c next reply q rest inductionHypothesis =>
    exact .answered held c next reply r (inductionHypothesis second)
  | broke held c next why =>
    cases second
    exact .broke held c next why
  | named next name q rest inductionHypothesis => exact .named next name r (inductionHypothesis second)
  | worked held next answer q rest inductionHypothesis =>
    exact .worked held next answer r (inductionHypothesis second)

/-- A caller always has before it a part of the program that it started with. A step of its own leaves the part behind
that step, and a step of anybody else leaves its program alone. -/
theorem Crowd.Course.leaves [TokenNumber α] {k : String} {fair : Move ω → Scene α ω → Scene α ω → Prop}
    {w w' : Crowd α ω β} (course : Course k fair w w') (i : Nat) : (w.callers i).Leaves (w'.callers i) := by
  induction course with
  | start => exact .all _
  | @step w₁ w₂ move _ step _ before =>
    have goesOn (j : Nat) (rest : Program ω β) (callers : w₂.callers = Function.update w₁.callers j rest)
        (mine : (w₁.callers j).Leaves rest) : (w₁.callers i).Leaves (w₂.callers i) := by
      rw [callers]
      by_cases same : i = j
      · subst same
        rw [Function.update_self]
        exact mine
      · rw [Function.update_of_ne same]
        exact .all _
    refine before.trans ?_
    cases step with
    | answered j held c next store reply ready _ =>
      exact goesOn j _ rfl (ready ▸ .answered held c next reply _ (.all _))
    | failed j held c next why ready => exact goesOn j _ rfl (ready ▸ .answered held c next (.error why) _ (.all _))
    | broke j held c next store why ready _ => exact goesOn j _ rfl (ready ▸ .broke held c next why)
    | named j next name ready _ => exact goesOn j _ rfl (ready ▸ .named next name _ (.all _))
    | worked j held next answer ready => exact goesOn j _ rfl (ready ▸ .worked held next answer _ (.all _))
    | outside c => exact .all _
    | purge => exact .all _
    | wait later ahead => exact .all _

/-- What a caller sees of other callers' steps: time goes on, and notes of others come on top of the past. -/
structure Scene.Onward (i : Nat) (v v' : Scene α ω) : Prop where
  later : v.now ≤ v'.now
  past : ∃ news, v'.past = news ++ v.past ∧ ∀ note ∈ news, note.caller ≠ i

namespace Scene

variable {v v' v'' : Scene α ω} {i j : Nat} {k : String}

/-- Where nothing has happened, others have done nothing. -/
theorem Onward.refl (i : Nat) (v : Scene α ω) : Onward i v v where
  later := Nat.le_refl _
  past := ⟨[], rfl, by simp⟩

/-- What others do in two parts they do at once: their notes are put together, and none of them is the caller's. -/
theorem Onward.trans (first : Onward i v v') (second : Onward i v' v'') : Onward i v v'' where
  later := Nat.le_trans first.later second.later
  past := by
    obtain ⟨news, before, others⟩ := first.past
    obtain ⟨more, after, alsoOthers⟩ := second.past
    refine ⟨more ++ news, by rw [after, before, List.append_assoc], ?_⟩
    intro note here
    exact (List.mem_append.mp here).elim (alsoOthers note) (others note)

/-- Notes stay: what others do comes on top of the past, and nothing is struck out. -/
theorem Onward.suffix (moved : Onward i v v') : v.past <:+ v'.past := by
  obtain ⟨news, after, _⟩ := moved.past
  exact ⟨news, after.symm⟩

/-- All notes that there were are still there. -/
theorem Onward.more (moved : Onward i v v') : v.past ⊆ v'.past := moved.suffix.subset

/-- A note of the caller's own was there before, since all that is new is by others. -/
theorem Onward.mine (moved : Onward i v v') {note : Note ω} (noted : note ∈ v'.past)
    (mine : note.caller = i) : note ∈ v.past := by
  obtain ⟨news, after, others⟩ := moved.past
  rw [after] at noted
  exact (List.mem_append.mp noted).resolve_left fun new => others note new mine

/-- A deed adds its note on top of the past. -/
theorem Own.suffix [TokenNumber α] {deed : Deed ω} (did : Own k i deed v v') : v.past <:+ v'.past :=
  ⟨[⟨i, v.now, deed⟩], did.past.symm⟩

/-- All notes that there were are still there after a deed. -/
theorem Own.more [TokenNumber α] {deed : Deed ω} (did : Own k i deed v v') : v.past ⊆ v'.past :=
  did.suffix.subset

/-- A deed is noted, with its caller and the time. -/
theorem Own.noted [TokenNumber α] {deed : Deed ω} (did : Own k i deed v v') : ⟨i, v.now, deed⟩ ∈ v'.past := by
  rw [did.past]
  exact List.mem_cons_self

/-- What one caller does is a step of another for everybody else. -/
theorem Own.onward [TokenNumber α] {deed : Deed ω} (did : Own k i deed v v') (other : j ≠ i) :
    Onward j v v' where
  later := Nat.le_of_eq (congrArg Moment.nanos did.now.symm)
  past := by
    refine ⟨[⟨i, v.now, deed⟩], did.past, fun note here => ?_⟩
    rw [List.mem_singleton.mp here]
    exact Ne.symm other

/-- A call from outside the crowd leaves no note, so nobody sees more of it than that time has not gone back. -/
theorem Outside.onward [TokenNumber α] {c : Call} (moved : Outside k c v v') : Onward j v v' where
  later := Nat.le_of_eq (congrArg Moment.nanos moved.now.symm)
  past := ⟨[], moved.past, by simp⟩

/-- Time that passes leaves no note either. -/
theorem onward_waited {later : Moment} (ahead : v.now ≤ later) : Onward j v (v.waited later) where
  later := ahead
  past := ⟨[], rfl, by simp⟩

end Scene

end Turnstile
