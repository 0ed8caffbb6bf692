import Turnstile.Proofs.Guard.Handling
import Turnstile.Proofs.Guard.Visit
import Turnstile.Settings

/-!
What becomes of the result of an operation that succeeded.

Visitors and issuers of one key take their steps in any order. Nobody from outside touches the record, but it may
run out at any time, and whoever comes then creates it anew. A visitor whose operation has succeeded resolves the
key in up to four calls.

When its replacement of the pending text is refused, the visitor finds a result, or it finds nothing, and then it
creates the record with the result. A result is lost only when another caller writes to the record between the
refusal and a later call of the visitor's, as it happens when the record runs out while the operation runs and is
created anew right after the refusal.
-/

namespace Turnstile

variable {α ω β τ : Type} {k : String}

/-- A text that does not stand for a result that a visitor could return, though it is not the pending text. -/
def Illegible (codec : Codec τ) (text : String) : Prop :=
  text ≠ Record.placeholder ∧
    ∀ value, Record.read text = .ok (.resolved value) → ∃ cause, codec.decode value = .error cause

/-- A note of a result that can not be encoded, or of a text in the record that is illegible. -/
def Note.IsGarbled (codec : Codec τ) (note : Note (Except Failure τ)) : Prop :=
  match note.deed with
  | .worked (.ok result) => ∃ cause, codec.encode result = .error cause
  | .called (.get _) (.ok (some text)) => Illegible codec text
  | _ => False

/-- A visitor came upon something that can not be encoded or read. -/
def Garbled (codec : Codec τ) (i : Nat) (past : List (Note (Except Failure τ))) : Prop :=
  ∃ note ∈ past, note.caller = i ∧ note.IsGarbled codec

/-- How a visit ends whose operation has succeeded and whose calls were answered. -/
def Accounted (codec : Codec τ) (k : String) (i : Nat) (past : List (Note (Except Failure τ))) :
    Except Failure β → Prop
  | .ok _ => LeftResolved k i past
  | .error why =>
    ((∃ text, why = .internal text) ∧ ¬ LeftResolved k i past ∧ Overtaken k i past) ∨ Garbled codec i past

/-- What is told of the end of a visit. -/
def Told (codec : Codec τ) (k : String) (i : Nat) (outcome : Except Failure β)
    (past : List (Note (Except Failure τ))) : Prop :=
  HasWon i past → ¬ Mishap i past → Accounted codec k i past outcome

/-- A value that a caller read as the result. -/
def HasRead (i : Nat) (value : Json.Value) (past : List (Note ω)) : Prop :=
  ∃ note ∈ past, note.caller = i ∧ ∃ key text, note.deed = .called (.get key) (.ok (some text)) ∧
    Record.read text = .ok (.resolved value)

/-- What a look at the record tells after a replacement was refused. -/
def Glimpse (codec : Codec τ) (k : String) (i : Nat) (shows : Option (Entry α) → Prop)
    (v : Scene α (Except Failure τ)) : Option Record → Prop
  | some (.resolved value) => LeftResolved k i v.past ∧ HasRead i value v.past
  | some .pending => ¬ LeftResolved k i v.past ∧ (Overtaken k i v.past ∨ Garbled codec i v.past)
  | none => ¬ LeftResolved k i v.past ∧ SinceRefusal k i (fun e => shows e ∧ e = none) v

/-- What a resolution tells: the record is resolved, and another's result has been read. -/
structure Settled (k : String) (i : Nat) (resolution : Resolution) (past : List (Note ω)) : Prop where
  left : LeftResolved k i past
  read : ∀ other, resolution = .alreadyResolved other → HasRead i other past

/-- Callers with a key: those who present it with a call, and those who only issue it. -/
inductive Party (τ : Type) where
  | visitor (visit : Visit τ)
  | issuer

/-- What a caller with a key does. -/
def Party.program (g : Guard) (k : String) :
    Party τ → Program (Except Failure τ) (Except Failure (Option (Guarded τ)))
  | .visitor visit => do return (← visit.program g k).map some
  | .issuer => do return (← (g.registry.issue k).run).map fun _ => none

section

variable {i : Nat} {codec : Codec τ}

/-! What more notes change. -/

/-- What could not be read or written stays so among more notes. -/
theorem garbled_mono {past past' : List (Note (Except Failure τ))} (more : past ⊆ past')
    (garbled : Garbled codec i past) : Garbled codec i past' := by
  obtain ⟨note, noted, is⟩ := garbled
  exact ⟨note, more noted, is⟩

/-- And what a caller has read it has read. -/
theorem hasRead_mono {past past' : List (Note ω)} (more : past ⊆ past') {value : Json.Value}
    (hasRead : HasRead i value past) : HasRead i value past' := by
  obtain ⟨note, noted, is⟩ := hasRead
  exact ⟨note, more noted, is⟩

/-- What was told stays true when more is noted, unless the caller touches the record or succeeds. How it left the
record is told by its own calls there, and a mishap or a success would be another note of its own. -/
theorem told_cons {outcome : Except Failure β} {past : List (Note (Except Failure τ))}
    {note : Note (Except Failure τ)} (unhandled : note.handles k i = false) (not : note.caller = i → ¬ note.isWin)
    (told : Told codec k i outcome past) : Told codec k i outcome (note :: past) := by
  intro won smooth
  have before : Accounted codec k i past outcome :=
    told (hasWon_of_cons not won) fun mishap => smooth (mishap_mono (List.subset_cons_self _ _) mishap)
  cases outcome with
  | ok b => exact (leftResolved_cons unhandled).mpr before
  | error why =>
    rcases before with ⟨internal, unresolved, overtaken⟩ | garbled
    · exact .inl ⟨internal, fun left => unresolved ((leftResolved_cons unhandled).mp left),
        overtaken_suffix (List.suffix_cons _ _) overtaken⟩
    · exact .inr (garbled_mono (List.subset_cons_self _ _) garbled)

/-- So it stays true while others move, as none of their notes is about the caller. -/
theorem told_onward {v v' : Scene α (Except Failure τ)} {outcome : Except Failure β} (moved : v.Onward i v')
    (told : Told codec k i outcome v.past) : Told codec k i outcome v'.past := by
  obtain ⟨news, after, others⟩ := moved.past
  rw [after]
  clear after
  induction news with
  | nil => exact told
  | cons note news inductionHypothesis =>
    have other := others note List.mem_cons_self
    exact told_cons (unhandled_of_other other) (fun mine => absurd mine other)
      (inductionHypothesis fun note new => others note (List.mem_cons_of_mem _ new))

/-- Nothing is told of a visit whose operation has not succeeded. -/
theorem told_of_not_won {outcome : Except Failure β} {past : List (Note (Except Failure τ))}
    (not : ¬ HasWon i past) : Told codec k i outcome past :=
  fun won => absurd won not

/-- Nor of one that had a mishap: then it may have left the record in any way. -/
theorem told_of_mishap {outcome : Except Failure β} {past : List (Note (Except Failure τ))}
    (mishap : Mishap i past) : Told codec k i outcome past :=
  fun _ smooth => absurd mishap smooth

/-- A visit that ends with an error of its own is told of if it left the record unresolved, and was overtaken or read
something illegible. -/
theorem told_internal {past : List (Note (Except Failure τ))} {text : String}
    (unresolved : ¬ LeftResolved k i past) (lost : Overtaken k i past ∨ Garbled codec i past) :
    Told codec k i (.error (.internal text) : Except Failure β) past :=
  fun _ _ => lost.imp (fun overtaken => ⟨⟨text, rfl⟩, unresolved, overtaken⟩) id

/-- A look that comes upon a result settles the matter: the record shows a result, and it has been read. -/
theorem settled_of_glimpse {shows : Option (Entry α) → Prop} {v : Scene α (Except Failure τ)} {other : Json.Value}
    (glimpse : Glimpse codec k i shows v (some (.resolved other))) :
    Settled k i (.alreadyResolved other) v.past where
  left := glimpse.1
  read := by
    rintro value ⟨⟩
    exact glimpse.2

variable [TokenNumber α]

/-! What each part of a visit tells. -/

/-- What is told of a visit lasts, whatever others do. -/
theorem told_lasting {outcome : Except Failure β} :
    (handling (α := α) k).Lasting i fun v => Told codec k i outcome v.past :=
  fun _ _ moved _ => told_onward moved.onward

/-- That a caller has not succeeded lasts as well, since others can not succeed for it. -/
theorem unwon_lasting : (handling (α := α) (τ := τ) k).Lasting i fun v => ¬ HasWon i v.past :=
  fun _ _ moved _ not won => not (hasWon_before moved.onward won)

/-- A call adds no success, for only the operation can. -/
theorem unwon_called {v v' : Scene α (Except Failure τ)} {c : Call} {reply : Except Failure c.Reply}
    (did : Scene.Own k i (.called c reply) v v') (not : ¬ HasWon i v.past) : ¬ HasWon i v'.past := by
  exact fun won => not (hasWon_of_own did nofun won)

/-- What one look came upon lasts until the caller touches the record again. What it says of the record holds since the
refusal, and others can change that by writing to it only. -/
theorem glimpse_lasting {shows : Option (Entry α) → Prop} (found : Option Record) :
    (handling k).Lasting i fun v => Glimpse codec k i shows v found := by
  intro v v' moved _ glimpse
  have left : LeftResolved k i v'.past ↔ LeftResolved k i v.past := leftResolved_onward moved.onward
  match found, glimpse with
  | some (.resolved value), ⟨resolved, hasRead⟩ =>
    exact ⟨left.mpr resolved, hasRead_mono moved.onward.more hasRead⟩
  | some .pending, ⟨unresolved, .inl overtaken⟩ =>
    exact ⟨left.not.mpr unresolved, .inl (overtaken_suffix moved.onward.suffix overtaken)⟩
  | some .pending, ⟨unresolved, .inr garbled⟩ =>
    exact ⟨left.not.mpr unresolved, .inr (garbled_mono moved.onward.more garbled)⟩
  | none, ⟨unresolved, since⟩ =>
    refine ⟨left.not.mpr unresolved, since_steady ?_ moved since⟩
    rintro _ ⟨shown, rfl⟩
    exact ⟨shown, rfl⟩

/-- A record that is a text is seen by whoever looks, so what is not seen is not there. -/
theorem record_of_unseen {v v' : Scene α ω} (textual : Textual v)
    (did : Scene.Own k i (.called (.get (recordKey k)) (.ok none)) v v') : v'.record = none := by
  obtain ⟨e, decided, after⟩ := Deed.changes_at rfl did.record
  obtain ⟨seen, same⟩ := Call.onEntry_get decided
  rw [after, same]
  cases record : v.record with
  | none => rfl
  | some e =>
    have text := textual e record
    rw [record] at seen
    rw [show e.text? = none from seen.symm] at text
    cases text

/-- What one look comes upon: a result, which the record shows then and which has been read; the pending text, and then
others have rewritten the record; or nothing, and then it is gone, or it was rewritten and has gone again. -/
theorem glimpse_of_look {v v' : Scene α (Except Failure τ)} {shows : Option (Entry α) → Prop}
    {text : Option String} {found : Option Record} (gone : ∀ e, shows e → shows none)
    (unexpected : ∀ e, shows e → e.bind Entry.text? ≠ some Record.placeholder) (textual : Textual v)
    (since : SinceRefusal k i shows v) (did : Scene.Own k i (.called (.get (recordKey k)) (.ok text)) v v')
    (read : Registry.readRecord text = .ok found) : Glimpse codec k i shows v' found := by
  have handled :
      (⟨i, v.now, .called (.get (recordKey k)) (.ok text)⟩ : Note (Except Failure τ)).handles k i = true := by
    simp [Note.handles, Call.key?]
  have left : LeftResolved k i v'.past ↔
      (⟨i, v.now, .called (.get (recordKey k)) (.ok text)⟩ : Note (Except Failure τ)).ShowsResult := by
    rw [did.past]
    exact leftResolved_cons_handled handled
  have since' := since_looked gone did since
  obtain ⟨_, decided, _⟩ := Deed.changes_at rfl did.record
  have seen := (Call.onEntry_get decided).1
  cases text with
  | none =>
    cases read
    refine ⟨left.not.mpr id, ?_⟩
    rcases since' with rewritten | ⟨refused, shown⟩
    · exact .inl rewritten
    · exact .inr ⟨refused, shown, record_of_unseen textual did⟩
  | some text =>
    cases parsed : Record.read text with
    | error fault =>
      simp only [Registry.readRecord, parsed] at read
      cases read
    | ok record =>
      simp only [Registry.readRecord, parsed] at read
      cases read
      cases record with
      | resolved value => exact ⟨left.mpr ⟨value, parsed⟩, _, did.noted, rfl, recordKey k, text, rfl, parsed⟩
      | pending =>
        constructor
        · intro resolved
          obtain ⟨value, other⟩ := left.mp resolved
          rw [parsed] at other
          cases other
        · rcases since with rewritten | ⟨_, shown⟩
          · exact .inl (overtaken_of_touched did handled rewritten)
          · have other : text ≠ Record.placeholder := by
              rintro rfl
              exact unexpected _ shown seen.symm
            refine .inr ⟨_, did.noted, rfl, other, fun value resolved => ?_⟩
            rw [parsed] at resolved
            cases resolved

/-- Looking the record up after a replacement was refused. If the call fails this is a mishap; if its text is illegible
the caller has read that; otherwise it is one look, as above. -/
theorem outcome_find (g : Guard) {v : Scene α (Except Failure τ)} {shows : Option (Entry α) → Prop}
    (gone : ∀ e, shows e → shows none)
    (unexpected : ∀ e, shows e → e.bind Entry.text? ≠ some Record.placeholder)
    (since : SinceRefusal k i shows v) :
    (handling k).Meets i (fun v' found => Glimpse codec k i shows v' found)
      (fun v' why => Told codec k i (.error why : Except Failure (τ × Bool)) v'.past)
      (g.registry.find? k) v := by
  refine Conduct.meets_find fun v₁ moved₁ textual₁ => ⟨fun _ => .inl rfl, fun reply v₂ did _ _ => ?_⟩
  have since₁ := since_steady gone moved₁ since
  cases reply with
  | error why => exact told_lasting.henceforth (told_of_mishap (mishap_of_failed did))
  | ok text =>
    simp only [Except.bind]
    cases read : Registry.readRecord text with
    | ok found =>
      exact (glimpse_lasting found).henceforth (glimpse_of_look gone unexpected textual₁ since₁ did read)
    | error why =>
      refine told_lasting.henceforth fun _ _ => .inr ?_
      cases text with
      | none => cases read
      | some text =>
        refine ⟨_, did.noted, rfl, ?_, fun value resolved => ?_⟩
        · rintro rfl
          simp only [Registry.readRecord, Record.read_placeholder] at read
          cases read
        · simp only [Registry.readRecord, resolved] at read
          cases read

/-- What a resolution tells lasts: others neither change how the caller left the record nor what it has read. -/
theorem settled_lasting {resolution : Resolution} :
    (handling (α := α) (τ := τ) k).Lasting i fun v => Settled k i resolution v.past :=
  fun _ _ moved _ settled => {
    left := (leftResolved_onward moved.onward).mpr settled.left
    read := fun other is => hasRead_mono moved.onward.more (settled.read other is) }

/-- A call that leaves a result settles the matter, and it tells of no other result. -/
theorem settled_of_written {v v' : Scene α ω} {c : Call} {reply : c.Reply}
    (did : Scene.Own k i (.called c (.ok reply)) v v')
    (handled : (⟨i, v.now, .called c (.ok reply)⟩ : Note ω).handles k i = true)
    (shows : (⟨i, v.now, .called c (.ok reply)⟩ : Note ω).ShowsResult) : Settled k i .stored v'.past where
  left := by
    rw [did.past]
    exact (leftResolved_cons_handled handled).mpr shows
  read := nofun

/-- Resolving the key. The swap is made, or it is refused and a look follows; if that finds nothing the result is
written, or somebody has created the record meanwhile and a last look decides. At every end the record is resolved, or
the caller was overtaken, or something was illegible. -/
theorem outcome_resolve (g : Guard) (value : Json.Value) {v : Scene α (Except Failure τ)} :
    (handling k).Meets i (fun v' resolution => Settled k i resolution v'.past)
      (fun v' why => Told codec k i (.error why : Except Failure (τ × Bool)) v'.past)
      (g.registry.resolve k value) v := by
  unfold Registry.resolve
  refine Conduct.Meets.bind (Conduct.meets_ask fun v₁ _ _ =>
    ⟨fun _ => .inr (.inr ⟨_, _, _, rfl⟩), fun reply v₂ did _ _ => ?_⟩)
  rcases reply with why | _ | _
  · exact told_lasting.henceforth (told_of_mishap (mishap_of_failed did))
  · have since₂ : SinceRefusal k i (fun e => e.bind Entry.text? ≠ some Record.placeholder) v₂ :=
      since_refused did
    intro v₃ moved₃ _
    refine Conduct.Meets.bind (Conduct.Meets.weaken (outcome_find g (by simp) (fun _ other => other)
      (since_steady (by simp) moved₃ since₂)) ?_ fun _ _ _ told => told)
    intro v₄ found _ glimpse
    cases found with
    | some record =>
      cases record with
      | resolved other =>
        exact Conduct.meets_pure (settled_lasting.henceforth (settled_of_glimpse glimpse))
      | pending => exact Conduct.meets_throw (told_lasting.henceforth (told_internal glimpse.1 glimpse.2))
    | none =>
      have since₄ : SinceRefusal k i (fun e => e.bind Entry.text? ≠ some Record.placeholder ∧ e = none) v₄ :=
        glimpse.2
      refine Conduct.Meets.bind (Conduct.meets_ask fun v₅ moved₅ _ =>
        ⟨fun _ => .inr (.inl ⟨_, _, rfl⟩), fun reply v₆ did _ _ => ?_⟩)
      rcases reply with why | _ | _
      · exact told_lasting.henceforth (told_of_mishap (mishap_of_failed did))
      · have rewritten : Rewritten k i v₅.past :=
          rewritten_of_uncreated (since_steady (by simp) moved₅ since₄) did
        have overtaken : Overtaken k i v₆.past :=
          overtaken_of_touched did (by simp [Note.handles, Call.key?]) rewritten
        intro v₇ moved₇ _
        have rewritten₇ : Rewritten k i v₇.past :=
          rewritten_suffix (did.suffix.trans moved₇.onward.suffix) rewritten
        have overtaken₇ : Overtaken k i v₇.past := overtaken_suffix moved₇.onward.suffix overtaken
        have looks := @outcome_find α τ k i codec _ g v₇ (· = none) (fun _ _ => rfl) (by simp) (.inl rewritten₇)
        refine Conduct.Meets.bind (Conduct.Meets.weaken
          (looks.remember (fun _ _ => overtaken_suffix) overtaken₇) ?_ fun _ _ _ told => told.1)
        rintro v₈ found _ ⟨glimpse, overtaken₈⟩
        cases found with
        | some record =>
          cases record with
          | resolved other =>
            exact Conduct.meets_pure (settled_lasting.henceforth (settled_of_glimpse glimpse))
          | pending => exact Conduct.meets_throw (told_lasting.henceforth (told_internal glimpse.1 glimpse.2))
        | none =>
          exact Conduct.meets_throw (told_lasting.henceforth (told_internal glimpse.1 (.inl overtaken₈)))
      · have settled₆ : Settled k i .stored v₆.past :=
          settled_of_written did (by simp [Note.handles, Call.key?]) ⟨value, rfl⟩
        exact fun v₇ moved₇ _ => Conduct.meets_pure (Conduct.Henceforth.later
          (settled_lasting.henceforth settled₆) moved₇)
  · have settled₂ : Settled k i .stored v₂.past :=
      settled_of_written did (by simp [Note.handles, Call.key?]) ⟨value, rfl⟩
    exact fun v₃ moved₃ _ => Conduct.meets_pure (Conduct.Henceforth.later
      (settled_lasting.henceforth settled₂) moved₃)

/-- Decoding a value that was read: if that fails, something illegible was read; and the record is resolved in any case. -/
theorem outcome_decoded {value : Json.Value} {v : Scene α (Except Failure τ)} (left : LeftResolved k i v.past)
    (hasRead : HasRead i value v.past) :
    (handling k).Meets i (fun v' result => Told codec k i (.ok (result, true) : Except Failure (τ × Bool)) v'.past)
      (fun v' why => Told codec k i (.error why : Except Failure (τ × Bool)) v'.past)
      (Guard.decoded codec value) v := by
  refine Conduct.meets_ofResult ?_
  cases decoded : codec.decode value with
  | ok result => exact told_lasting.henceforth fun _ _ => left
  | error cause =>
    refine told_lasting.henceforth fun _ _ => .inr ?_
    obtain ⟨note, noted, mine, key, text, is, read⟩ := hasRead
    refine ⟨note, noted, mine, ?_⟩
    simp only [Note.IsGarbled, is]
    constructor
    · rintro rfl
      rw [Record.read_placeholder] at read
      cases read
    · intro other resolved
      rw [read] at resolved
      cases resolved
      exact ⟨cause, decoded⟩

/-- A look at the key before the operation has run. It adds no success, and it touches the record by its rule. -/
theorem outcome_kept (g : Guard) (origin : KeyOrigin) {v : Scene α (Except Failure τ)}
    (unwon : ¬ HasWon i v.past) :
    (handling k).Meets i (fun v' _ => ¬ HasWon i v'.past) (fun v' _ => ¬ HasWon i v'.past) (g.kept k origin) v :=
  Conduct.meets_kept unwon_lasting unwon (fun _ _ _ _ => .inl rfl) (fun _ _ _ _ => .inr (.inl ⟨_, _, rfl⟩))
    fun _ _ _ _ unwon _ did => unwon_called did unwon

/-- What a visitor does under the lock. Before its operation nothing has succeeded; if that fails, nothing has; and
after a success the resolution tells how the record was left. -/
theorem outcome_locked (g : Guard) (origin : KeyOrigin) {v : Scene α (Except Failure τ)}
    (unwon : ¬ HasWon i v.past) :
    (handling k).Meets i (fun v' outcome => Told codec k i (.ok outcome) v'.past)
      (fun v' why => Told codec k i (.error why : Except Failure (τ × Bool)) v'.past)
      (g.locked codec k origin Attempt.work) v := by
  unfold Guard.locked
  refine Conduct.Meets.bind (Conduct.Meets.weaken (outcome_kept g origin unwon) ?_
    fun _ _ _ unwon => told_of_not_won unwon)
  intro v₁ found _ unwon₁
  have quiet {outcome : Except Failure (τ × Bool)} :
      (handling k).Henceforth i v₁ fun v => Told codec k i outcome v.past :=
    told_lasting.henceforth (told_of_not_won unwon₁)
  match found with
  | some value =>
    refine Conduct.Meets.map _ (Conduct.meets_ofResult ?_)
    cases codec.decode value <;> exact quiet
  | none =>
    refine Conduct.Meets.bind (Conduct.meets_work fun v₂ moved₂ textual₂ =>
      ⟨trivial, fun answer v₃ did _ _ => ?_⟩)
    cases answer with
    | error why =>
      refine told_lasting.henceforth (told_of_not_won fun won => ?_)
      exact unwon_lasting v₁ v₂ moved₂ textual₂ unwon₁ (hasWon_of_own did nofun won)
    | ok result =>
      have worked : ⟨i, v₂.now, .worked (.ok result)⟩ ∈ v₃.past := did.noted
      intro v₄ moved₄ _
      refine Conduct.Meets.bind (Conduct.meets_ofResult ?_)
      cases encoded : codec.encode result with
      | error cause =>
        exact told_lasting.henceforth fun _ _ => .inr ⟨_, moved₄.onward.more worked, rfl, cause, encoded⟩
      | ok value =>
        intro v₅ _ _
        refine Conduct.Meets.bind (Conduct.Meets.weaken (outcome_resolve g value) ?_ fun _ _ _ told => told)
        rintro v₆ resolution _ ⟨left, hasRead⟩
        match resolution, hasRead with
        | .stored, _ => exact Conduct.meets_pure (told_lasting.henceforth fun _ _ => left)
        | .alreadyResolved other, hasRead => exact Conduct.Meets.map _ (outcome_decoded left (hasRead other rfl))

/-- What a visitor does once it is admitted. The lock and its release are no calls at the record, so what was told under
the lock is what is told. -/
theorem outcome_once (g : Guard) (origin : KeyOrigin) {v : Scene α (Except Failure τ)}
    (unwon : ¬ HasWon i v.past) :
    (handling k).Meets i (fun v' outcome => Told codec k i (.ok outcome) v'.past)
      (fun v' why => Told codec k i (.error why : Except Failure (τ × Bool)) v'.past)
      (g.once codec k origin Attempt.work) v := by
  unfold Guard.once
  refine Conduct.Meets.bind (Conduct.Meets.weaken (outcome_kept g origin unwon) ?_
    fun _ _ _ unwon => told_of_not_won unwon)
  intro v₁ found _ unwon₁
  match found with
  | some value =>
    refine Conduct.Meets.map _ (Conduct.meets_ofResult ?_)
    cases codec.decode value <;> exact told_lasting.henceforth (told_of_not_won unwon₁)
  | none =>
    refine Conduct.Meets.bind (Conduct.meets_acquire fun v₂ moved₂ textual₂ => ⟨trivial, ?_⟩)
    intro token v₃ did₃ _ _ v₄ moved₄ textual₄
    refine ⟨fun touched => absurd touched (lock_elsewhere k k), fun reply v₅ did₅ _ _ v₆ moved₆ textual₆ => ?_⟩
    have unwon₆ : ¬ HasWon i v₆.past := by
      refine unwon_lasting v₅ v₆ moved₆ textual₆ (unwon_called did₅ (unwon_lasting v₃ v₄ moved₄ textual₄ ?_))
      refine fun won => unwon_lasting v₁ v₂ moved₂ textual₂ unwon₁ ?_
      exact hasWon_of_own did₃ nofun won
    cases Lease.granted? k token reply with
    | none => exact Conduct.meets_throw (told_lasting.henceforth (told_of_not_won unwon₆))
    | some lease =>
      -- Giving the lock back touches no record.
      have leaves {v : Scene α (Except Failure τ)} {outcome : Except Failure (τ × Bool)}
          (told : Told codec k i outcome v.past) : (handling k).Asks i v lease.giveBack
            fun _ v => (handling k).Henceforth i v fun v => Told codec k i outcome v.past := by
        intro v₇ moved₇ _
        refine ⟨fun touched => absurd touched (lock_elsewhere k lease.key), fun reply v₈ did₈ _ _ => ?_⟩
        refine told_lasting.henceforth ?_
        rw [did₈.past]
        refine told_cons ?_ (fun _ ⟨_, is⟩ => by cases is) (told_onward moved₇.onward told)
        simp [Note.handles, Lease.giveBack, Call.key?, (recordKey_ne_lockKey k lease.key).symm]
      refine Conduct.meets_leased (Conduct.Meets.weaken (outcome_locked g origin unwon₆) ?_ ?_)
      · exact fun _ _ _ told => leaves told
      · exact fun _ _ _ told => leaves told

/-- A visitor handles the record as it may, and is accounted for at its end: before its key is looked at it has not
succeeded, and bucket and lock are elsewhere. -/
theorem outcome_visit (g : Guard) (visit : Visit τ) {v : Scene α (Except Failure τ)} (unwon : ¬ HasWon i v.past) :
    (handling k).Safe i (fun v' outcome => Told visit.codec k i outcome v'.past) (visit.program g k) v := by
  have meets : (handling k).Safe i
      (Conduct.either (fun v' r => Told visit.codec k i (.ok r) v'.past)
        fun v' why => Told visit.codec k i (.error why : Except Failure (Guarded τ)) v'.past)
      (visit.program g k) v := by
    refine Conduct.meets_visit g k visit unwon_lasting unwon ?_ ?_ ?_ ?_ ?_
    · intro v c _ _ touched here
      exact absurd here (Visit.bucket_elsewhere touched k).1
    · exact fun v unwon _ won => absurd won unwon
    · exact fun v v' c reply unwon _ did => unwon_called did unwon
    · exact fun v why unwon => told_of_not_won unwon
    · exact fun v origin admission _ unwon _ => outcome_once g origin unwon
  refine Conduct.Safe.weaken meets fun v' outcome _ told => ?_
  cases outcome <;> exact told

/-- What is told of a caller at its end. -/
def Party.Post (k : String) (i : Nat) (v : Scene α (Except Failure τ))
    (outcome : Except Failure (Option (Guarded τ))) : Party τ → Prop
  | .visitor visit => ∃ told, outcome = told.map some ∧ Told visit.codec k i told v.past
  | .issuer => True

/-- So does a caller that only issues the key. It has no operation, so nothing is told of it. -/
theorem safe_party (g : Guard) (party : Party τ) {v : Scene α (Except Failure τ)} (unwon : ¬ HasWon i v.past) :
    (handling k).Safe i (fun v' outcome => party.Post k i v' outcome) (party.program g k) v := by
  cases party with
  | visitor visit =>
    refine Conduct.Safe.bind (Conduct.Safe.weaken (outcome_visit g visit unwon) fun v' told _ accounted => ?_)
    exact fun v'' moved _ => ⟨told, rfl, told_onward moved.onward accounted⟩
  | issuer =>
    refine Conduct.Safe.bind fun v' _ _ => ⟨fun _ => .inr (.inl ⟨_, _, rfl⟩), fun _ _ _ _ _ => ?_⟩
    exact fun _ _ _ _ _ _ => trivial

/-- Whatever the order of steps, whoever issues the key anew and whenever records and locks run out: a visitor
whose operation has succeeded and whose own calls were answered does not break down. It returns a result and has
left the record resolved, or it lost the result to an internal failure because another caller wrote to the record
between its refused replacement and a later call of its own, or it came upon something that can not be encoded or
read. -/
theorem success_resolves_unless_overtaken (g : Guard) (parties : Nat → Party τ)
    {w w' : Crowd α (Except Failure τ) (Except Failure (Option (Guarded τ)))}
    (callers : ∀ i, w.callers i = (parties i).program g k) (distinct : w.store.entries.Distinct)
    (nobody : w.past = [])
    (texts : ∀ e, w.store.live? w.now (recordKey k) = some e → e.text?.isSome = true)
    (course : Crowd.Course k (fun move _ _ => move.Spares (recordKey k)) w w') {visit : Visit τ}
    (visits : parties i = .visitor visit) (won : HasWon i w'.past) (smooth : ¬ Mishap i w'.past) :
    (∀ held why, w'.callers i ≠ .broken held why) ∧ ∀ outcome, w'.callers i = .done outcome →
      ((∃ r, outcome = .ok (some r)) ∧ LeftResolved k i w'.past) ∨
        ((∃ text, outcome = .error (.internal text)) ∧ ¬ LeftResolved k i w'.past ∧ Overtaken k i w'.past) ∨
        ((∃ why, outcome = .error why) ∧ Garbled visit.codec i w'.past) := by
  have unwon (i : Nat) : ¬ HasWon i (w.scene k).past := by
    rintro ⟨note, noted, _⟩
    rw [show (w.scene k).past = [] from nobody] at noted
    cases noted
  have safe (i : Nat) : (handling k).Safe i (fun v outcome => (parties i).Post k i v outcome)
      (w.callers i) (w.scene k) := by
    rw [callers]
    exact safe_party g (parties i) (unwon i)
  obtain ⟨_, (textual : Textual (w'.scene k)), conducts⟩ := (handling k).course_safe course distinct texts safe
  have mine := conducts i
  constructor
  · intro held why is
    rw [is] at mine
    exact smooth (Conduct.Henceforth.here mine textual won)
  · intro outcome is
    rw [is, visits] at mine
    obtain ⟨told, rfl, accounted⟩ := Conduct.Henceforth.here mine textual
    have accounted : Accounted visit.codec k i w'.past told := accounted won smooth
    cases told with
    | ok r => exact .inl ⟨⟨r, rfl⟩, accounted⟩
    | error why =>
      rcases accounted with ⟨⟨text, rfl⟩, lost⟩ | garbled
      · exact .inr (.inl ⟨⟨text, rfl⟩, lost⟩)
      · exact .inr (.inr ⟨⟨why, rfl⟩, garbled⟩)

end

/-- Visitors, and two callers who only issue the key. -/
def textParties : Nat → Party String
  | 1 | 3 => .issuer
  | _ => .visitor textVisit

/-- These callers at a guard with the usual settings. -/
def partiesAt (k : String) : Crowd Binary64 (Except Failure String) (Except Failure (Option (Guarded String))) :=
  .atEmptyStore fun i => (textParties i).program Settings.usual.guard k

/-- The key is issued a day but ten seconds before a visitor comes. The record runs out while the operation runs, so
the replacement is refused. -/
def outlived : List (Cue (Except Failure String)) :=
  [.call 1, .wait 86390000000000, .call 0, .call 0, .name 0 "a", .call 0, .call 0, .wait 20000000000,
    .work 0 (.ok "paid"), .call 0]

/-- In that run the first caller's operation succeeds after the record has run out, and it leaves the record resolved. -/
theorem success_resolves_outlived :
    ∃ w', (partiesAt "order-1").play "order-1" (fun move _ _ => decide (move.Spares (recordKey "order-1")))
        (outlived ++ [.call 0, .call 0, .call 0]) = some w' ∧ HasWon 0 w'.past ∧ ¬ Mishap 0 w'.past ∧
      (∃ r, w'.callers 0 = .done (.ok (some r))) ∧ LeftResolved "order-1" 0 w'.past := by
  have played : ((partiesAt "order-1").play "order-1"
      (fun move _ _ => decide (move.Spares (recordKey "order-1"))) (outlived ++ [.call 0, .call 0, .call 0])).map
        (fun w => (decide (HasWon 0 w.past ∧ ¬ Mishap 0 w.past), (w.callers 0).won?.isSome)) =
      some (true, true) := by decide +kernel
  obtain ⟨w', is, ended⟩ := Option.map_eq_some_iff.mp played
  obtain ⟨well, done⟩ := Prod.mk.inj ended
  obtain ⟨won, smooth⟩ := of_decide_eq_true well
  obtain ⟨outcome, done⟩ := Option.isSome_iff_exists.mp done
  have done := Program.done_of_won done
  have course : Crowd.Course "order-1" (fun move _ _ => move.Spares (recordKey "order-1"))
      (partiesAt "order-1") w' := Crowd.course_of_play (fun _ _ _ => of_decide_eq_true) is
  obtain ⟨_, ends⟩ := success_resolves_unless_overtaken Settings.usual.guard textParties (fun _ => rfl)
    Table.distinct_empty rfl (fun _ none => by cases none) course rfl won smooth
  rcases ends _ done with ⟨⟨r, ok⟩, left⟩ | ⟨⟨_, error⟩, _⟩ | ⟨⟨_, error⟩, _⟩
  · exact ⟨w', is, won, smooth, ⟨r, done.trans (congrArg _ ok)⟩, left⟩
  · cases error
  · cases error

/-- Another caller issues the key between the replacement that is refused and the look that follows. Then a visitor
comes again. -/
def reissuedInBetween : List (Cue (Except Failure String)) :=
  outlived ++ [.call 3, .call 0, .call 0, .call 2, .call 2, .name 2 "b", .call 2, .call 2,
    .work 2 (.ok "paid again"), .call 2, .call 2]

/-- A result can be lost although no call fails and every lock is given back in time, and then the operation
succeeds again. -/
theorem success_lost_reissuedInBetween :
    ∃ w', (partiesAt "order-1").play "order-1"
        (fun move _ v' => decide (move.Spares (recordKey "order-1") ∧ InTime "order-1" v')) reissuedInBetween =
          some w' ∧ HasWon 0 w'.past ∧ (∀ note ∈ w'.past, note.isMishap = false) ∧
      (∃ why, w'.callers 0 = .done (.error why) ∧
        why.message = "Internal error: Placeholder for idempotency key order-1 changed during resolve") ∧
      ∃ r, w'.callers 2 = .done (.ok (some r)) ∧ r.replayed = false := by
  have played : ((partiesAt "order-1").play "order-1"
      (fun move _ v' => decide (move.Spares (recordKey "order-1") ∧ InTime "order-1" v')) reissuedInBetween).map
        (fun w => (decide (HasWon 0 w.past ∧ ∀ note ∈ w.past, note.isMishap = false),
          (w.callers 0).lost?.map Failure.message, (w.callers 2).won?.map fun r => r.map Guarded.replayed)) =
      some (true, some "Internal error: Placeholder for idempotency key order-1 changed during resolve",
        some (some false)) := by decide +kernel
  obtain ⟨w', is, ended⟩ := Option.map_eq_some_iff.mp played
  obtain ⟨well, ended⟩ := Prod.mk.inj ended
  obtain ⟨lost, again⟩ := Prod.mk.inj ended
  obtain ⟨won, smooth⟩ := of_decide_eq_true well
  obtain ⟨why, failed, message⟩ := Option.map_eq_some_iff.mp lost
  obtain ⟨answer, succeeded, replayed⟩ := Option.map_eq_some_iff.mp again
  obtain ⟨r, rfl, executed⟩ := Option.map_eq_some_iff.mp replayed
  exact ⟨w', is, won, smooth, ⟨why, Program.done_of_lost failed, message⟩, r, Program.done_of_won succeeded,
    executed⟩

end Turnstile
