import Turnstile.Proofs.Guard.Progress

/-!
The conduct of callers who handle a record.

They look at it, create it and replace it, and nobody from outside touches it. It may run out at any time. What a
caller can rely on is little: as long as no other caller writes to the record, all that can happen to it is that it
runs out. A replacement that is refused tells that the record did not show the pending text at that moment, so
unless another caller writes to it the record does not show it later either.
-/

namespace Turnstile

variable {α ω τ : Type} {k : String}

/-- Whether a note is of a call that failed or over which the store broke down. -/
def Note.isMishap (note : Note ω) : Bool :=
  match note.deed with
  | .called _ (.error _) => true
  | .broke _ _ => true
  | _ => false

/-- A call of a caller's own went wrong. -/
def Mishap (i : Nat) (past : List (Note ω)) : Prop := ∃ note ∈ past, note.caller = i ∧ note.isMishap = true

instance (i : Nat) (past : List (Note ω)) : Decidable (Mishap i past) :=
  inferInstanceAs (Decidable (∃ note ∈ past, _))

/-- Whether a note is of a caller's call at the record. -/
def Note.handles (k : String) (i : Nat) (note : Note ω) : Bool :=
  match note.deed with
  | .called c _ => note.caller = i && c.key? = some (recordKey k)
  | _ => false

/-- The call of a note left the record resolved: it wrote a result, or it read one. -/
def Note.ShowsResult (note : Note ω) : Prop :=
  match note.deed with
  | .called (.get _) (.ok (some text)) => ∃ value, Record.read text = .ok (.resolved value)
  | .called (.setIfAbsent _ text _) (.ok true) => ∃ value, text = (Record.resolved value).text
  | .called (.compareAndSet _ _ text _) (.ok true) => ∃ value, text = (Record.resolved value).text
  | _ => False

/-- The record was resolved when a caller touched it last. -/
def LeftResolved (k : String) (i : Nat) (past : List (Note ω)) : Prop :=
  ∃ note, past.find? (Note.handles k i) = some note ∧ note.ShowsResult

/-- Whether a note is of a caller's replacement that was refused. -/
def Note.isRefusal (k : String) (i : Nat) (note : Note ω) : Bool :=
  match note.deed with
  | .called (.compareAndSet key _ _ _) (.ok false) => note.caller = i && key = recordKey k
  | _ => false

/-- Another caller wrote to the record after a caller's replacement was refused. -/
def Rewritten (k : String) (i : Nat) (past : List (Note ω)) : Prop :=
  ∃ later refusal earlier, past = later ++ refusal :: earlier ∧ refusal.isRefusal k i = true ∧
    ∃ note ∈ later, note.caller ≠ i ∧ note.write? k ≠ none

/-- A caller touched the record again after that. -/
def Overtaken (k : String) (i : Nat) (past : List (Note ω)) : Prop :=
  ∃ later touch earlier, past = later ++ touch :: earlier ∧ touch.handles k i = true ∧ Rewritten k i earlier

/-- What callers rely on: unless somebody writes to it, all that can happen to the record is that it runs out. -/
structure Steady (k : String) (i : Nat) (v v' : Scene α ω) : Prop where
  onward : v.Onward i v'
  record : writes k v'.past = writes k v.past → v'.record = v.record ∨ v'.record = none

/-- The record is a text, if there is one. -/
def Textual (v : Scene α ω) : Prop := ∀ e, v.record = some e → e.text?.isSome = true

/-- What callers may do: handle the record, and break down if a call went wrong or before the operation
succeeded. -/
def HandlingRule (k : String) (i : Nat) (v : Scene α (Except Failure τ)) : Doing → Prop
  | .breaking => HasWon i v.past → Mishap i v.past
  | doing => TouchRule k doing

/-- A caller's replacement was refused, and unless the record has been rewritten since then it is as described. -/
def SinceRefusal (k : String) (i : Nat) (shows : Option (Entry α) → Prop) (v : Scene α ω) : Prop :=
  Rewritten k i v.past ∨ ((∃ note ∈ v.past, note.isRefusal k i = true) ∧ shows v.record)

section

variable {i j : Nat}

/-! What more notes change. -/

/-- A mishap is not undone by what is noted besides. -/
theorem mishap_mono {past past' : List (Note ω)} (more : past ⊆ past') (mishap : Mishap i past) :
    Mishap i past' := by
  obtain ⟨note, noted, is⟩ := mishap
  exact ⟨note, more noted, is⟩

/-- Once others have written to the record after a refusal, they have, whatever is noted on top. -/
theorem rewritten_suffix {past past' : List (Note ω)} (more : past <:+ past') (rewritten : Rewritten k i past) :
    Rewritten k i past' := by
  obtain ⟨news, rfl⟩ := more
  obtain ⟨later, refusal, earlier, rfl, refused, note, noted, is⟩ := rewritten
  exact ⟨news ++ later, refusal, earlier, by rw [List.append_assoc], refused, note,
    List.mem_append_right _ noted, is⟩

/-- And a caller that has been overtaken stays so, for the same reason. -/
theorem overtaken_suffix {past past' : List (Note ω)} (more : past <:+ past') (overtaken : Overtaken k i past) :
    Overtaken k i past' := by
  obtain ⟨news, rfl⟩ := more
  obtain ⟨later, touch, earlier, rfl, is⟩ := overtaken
  exact ⟨news ++ later, touch, earlier, by rw [List.append_assoc], is⟩

/-- A caller who touches the record leaves it as its call shows, and what it did to it before does not count any more. -/
theorem leftResolved_cons_handled {past : List (Note ω)} {note : Note ω} (handled : note.handles k i = true) :
    LeftResolved k i (note :: past) ↔ note.ShowsResult := by
  simp [LeftResolved, handled]

/-- Other notes change nothing of how a caller left the record, as only the last of its own calls there counts. -/
theorem leftResolved_cons {past : List (Note ω)} {note : Note ω} (unhandled : note.handles k i = false) :
    LeftResolved k i (note :: past) ↔ LeftResolved k i past := by
  simp [LeftResolved, unhandled]

/-- A note about somebody else is of no call that the caller made. -/
theorem unhandled_of_other {note : Note ω} (other : note.caller ≠ i) : note.handles k i = false := by
  unfold Note.handles
  split
  · simp [other]
  · rfl

/-- Others' notes change nothing of how a caller left the record, one note after the other. -/
theorem leftResolved_onward {v v' : Scene α ω} (moved : v.Onward i v') :
    LeftResolved k i v'.past ↔ LeftResolved k i v.past := by
  obtain ⟨news, after, others⟩ := moved.past
  rw [after]
  clear after
  induction news with
  | nil => exact Iff.rfl
  | cons note news inductionHypothesis =>
    rw [List.cons_append, leftResolved_cons (unhandled_of_other (others note List.mem_cons_self))]
    exact inductionHypothesis fun note new => others note (List.mem_cons_of_mem _ new)

/-! What the record shows since a replacement was refused. -/

/-- What others do twice leaves the record steady as well. If nothing is written on the whole way, nothing is on either
part of it, and a record that has run out does not come back. -/
theorem Steady.trans {v v' v'' : Scene α ω} (first : Steady k i v v') (second : Steady k i v' v'') :
    Steady k i v v'' where
  onward := first.onward.trans second.onward
  record same := by
    -- If nothing was written from the first scene to the last, nothing was written in between.
    have early : writes k v.past <:+ writes k v'.past := first.onward.suffix.filterMap _
    have late : writes k v'.past <:+ writes k v''.past := second.onward.suffix.filterMap _
    have between : writes k v'.past = writes k v.past := by
      refine (early.eq_of_length (Nat.le_antisymm early.length_le ?_)).symm
      rw [← same]
      exact late.length_le
    rcases second.record (same.trans between.symm) with kept | gone
    · rw [kept]
      exact first.record between
    · exact .inr gone

/-- An entry that passes or goes is the entry or nothing. -/
theorem filter_or_none (e : Option (Entry α)) (p : Entry α → Bool) : e.filter p = e ∨ e.filter p = none := by
  cases e with
  | none => exact .inr rfl
  | some e => by_cases passes : p e = true <;> simp [Option.filter, passes]

/-- If others have moved after a refusal and the writes are not what they were, some note of theirs is of a write. That
is what it means that the record has been rewritten. -/
theorem rewritten_of_written {v v' : Scene α ω} (moved : v.Onward i v')
    (refused : ∃ note ∈ v.past, note.isRefusal k i = true) (written : writes k v'.past ≠ writes k v.past) :
    Rewritten k i v'.past := by
  obtain ⟨refusal, noted, is⟩ := refused
  obtain ⟨later, earlier, split⟩ := List.append_of_mem noted
  obtain ⟨news, after, others⟩ := moved.past
  have new : ∃ note ∈ news, note.write? k ≠ none := by
    by_contra nothing
    refine written ?_
    have unwritten : news.filterMap (Note.write? k) = [] :=
      List.filterMap_eq_nil_iff.mpr fun note here => by
        by_contra wrote
        exact nothing ⟨note, here, wrote⟩
    rw [writes, after, List.filterMap_append, unwritten]
    rfl
  obtain ⟨note, here, wrote⟩ := new
  exact ⟨news ++ later, refusal, earlier, by rw [after, split, List.append_assoc], is, note,
    List.mem_append_left _ here, others note here, wrote⟩

/-- What holds since a refusal goes on to hold while others move. Either they write, and the record is rewritten, or
they do not, and then it is as it was or has run out. -/
theorem since_steady {v v' : Scene α ω} {shows : Option (Entry α) → Prop} (gone : ∀ e, shows e → shows none)
    (moved : Steady k i v v') (since : SinceRefusal k i shows v) : SinceRefusal k i shows v' := by
  rcases since with rewritten | ⟨refused, shown⟩
  · exact .inl (rewritten_suffix moved.onward.suffix rewritten)
  · by_cases same : writes k v'.past = writes k v.past
    · obtain ⟨note, noted, is⟩ := refused
      refine .inr ⟨⟨note, moved.onward.more noted, is⟩, ?_⟩
      rcases moved.record same with kept | run
      · exact kept ▸ shown
      · exact run ▸ gone _ shown
    · exact .inl (rewritten_of_written moved.onward refused same)

variable [TokenNumber α]

/-- The caller's own look leaves the record as it is, up to an entry that has expired. -/
theorem since_looked {v v' : Scene α ω} {shows : Option (Entry α) → Prop} {text : Option String}
    (gone : ∀ e, shows e → shows none)
    (did : Scene.Own k i (.called (.get (recordKey k)) (.ok text)) v v') (since : SinceRefusal k i shows v) :
    SinceRefusal k i shows v' := by
  rcases since with rewritten | ⟨⟨note, noted, is⟩, shown⟩
  · exact .inl (rewritten_suffix did.suffix rewritten)
  · obtain ⟨e, decided, after⟩ := Deed.changes_at rfl did.record
    refine .inr ⟨⟨note, did.more noted, is⟩, ?_⟩
    rw [after, (Call.onEntry_get decided).2]
    rcases filter_or_none v.record (·.isLive v.now) with kept | run
    · rw [kept]
      exact shown
    · rw [run]
      exact gone _ shown

/-- Who touches a record that has been rewritten is overtaken: the call is the touch, and all that was noted before it
is the past in question. -/
theorem overtaken_of_touched {v v' : Scene α ω} {deed : Deed ω} (did : Scene.Own k i deed v v')
    (handled : (⟨i, v.now, deed⟩ : Note ω).handles k i = true) (rewritten : Rewritten k i v.past) :
    Overtaken k i v'.past :=
  ⟨[], ⟨i, v.now, deed⟩, v.past, did.past, handled, rewritten⟩

/-- A replacement of the pending text that is refused: the record does not show it, as the store would have replaced it
otherwise. -/
theorem since_refused {v v' : Scene α ω} {expected text : String} {life : Span}
    (did : Scene.Own k i (.called (.compareAndSet (recordKey k) expected text life) (.ok false)) v v') :
    SinceRefusal k i (fun e => e.bind Entry.text? ≠ some expected) v' := by
  obtain ⟨e, decided, after⟩ := Deed.changes_at rfl did.record
  obtain ⟨other, same⟩ := Call.onEntry_replace_false decided
  refine .inr ⟨⟨_, did.noted, by simp [Note.isRefusal]⟩, ?_⟩
  rw [after, same]
  rcases filter_or_none v.record (·.isLive v.now) with kept | run
  · rw [kept]
    exact other
  · rw [run]
    simp

/-- A record that can not be created is there, for that is the only reason to refuse it. -/
theorem record_of_uncreated {v v' : Scene α ω} {text : String} {life : Span}
    (did : Scene.Own k i (.called (.setIfAbsent (recordKey k) text life) (.ok false)) v v') : v.record ≠ none := by
  obtain ⟨_, decided, _⟩ := Deed.changes_at rfl did.record
  have there := (Call.onEntry_set_false decided).1
  intro gone
  rw [gone] at there
  cases there

/-- A record that was gone and can not be created has been created by another caller in between. -/
theorem rewritten_of_uncreated {v v' : Scene α ω} {shows : Option (Entry α) → Prop} {text : String} {life : Span}
    (since : SinceRefusal k i (fun e => shows e ∧ e = none) v)
    (did : Scene.Own k i (.called (.setIfAbsent (recordKey k) text life) (.ok false)) v v') :
    Rewritten k i v.past := by
  rcases since with rewritten | ⟨_, _, gone⟩
  · exact rewritten
  · exact absurd gone (record_of_uncreated did)

/-! Handling the record. -/

/-- A deed that is allowed leaves the record a text, and changes it for others only by writing to it. What touches the
record is a look, a creation or a swap, and the last two put a text there. -/
theorem Textual.own {deed : Deed (Except Failure τ)} {v v' : Scene α (Except Failure τ)} (textual : Textual v)
    (rule : HandlingRule k i v deed.doing) (did : Scene.Own k i deed v v') :
    Textual v' ∧ ∀ j, j ≠ i → Steady k j v v' := by
  have touches : TouchRule k deed.doing := by
    cases deed <;> exact rule
  rcases Ledger.record_of_deed touches did with ⟨_, same⟩ | ⟨write, e, written, text, shown⟩
  · have kept : v'.record = v.record ∨ v'.record = none := by
      rcases same with same | filtered
      · exact .inl same
      · rw [filtered]
        exact filter_or_none _ _
    constructor
    · intro e is
      rcases kept with same | gone
      · exact textual e (same ▸ is)
      · rw [gone] at is
        cases is
    · intro j other
      exact ⟨did.onward other, fun _ => kept⟩
  · constructor
    · intro e' is
      rw [shown] at is
      obtain ⟨is, _⟩ := Option.filter_eq_some_iff.mp is
      rw [← Option.some.inj is, text]
      rfl
    · intro j other
      refine ⟨did.onward other, fun same => ?_⟩
      rw [did.past, writes, List.filterMap_cons_some written] at same
      exact absurd (congrArg List.length same) (Nat.succ_ne_self _)

/-- The conduct of callers who handle a record that nobody from outside touches. -/
def handling (k : String) : Conduct α (Except Failure τ) where
  key := k
  fair move _ _ := move.Spares (recordKey k)
  inv := Textual
  may := HandlingRule k
  rely := Steady k
  onward _ _ _ moved := moved.onward
  rely_refl i v := ⟨.refl i v, fun _ => .inl rfl⟩
  rely_trans _ _ _ _ := Steady.trans
  own _ _ _ _ textual rule did _ := textual.own rule did
  outside _ v v' textual moved spares := by
    obtain ⟨_, record, _⟩ := moved.changes
    have same : v'.record = v.record := Deed.changes_elsewhere spares record
    exact ⟨fun e is => textual e (same ▸ is), fun _ => { onward := moved.onward, record := fun _ => .inl same }⟩
  waited _ v textual ahead _ :=
    ⟨fun e is => textual e (Option.filter_eq_some_iff.mp is).1,
      fun _ => { onward := Scene.onward_waited ahead, record := fun _ => filter_or_none _ _ }⟩
  broke _ _ _ _ _ _ _ did _ _ moved _ _ := ⟨_, moved.onward.more did.noted, rfl, rfl⟩

/-- A call that fails is a mishap: its failure is noted with the caller. -/
theorem mishap_of_failed {v v' : Scene α ω} {c : Call} {why : Failure}
    (did : Scene.Own k i (.called c (.error why)) v v') : Mishap i v'.past :=
  ⟨⟨i, v.now, .called c (.error why)⟩, did.noted, rfl, rfl⟩

end

end Turnstile
