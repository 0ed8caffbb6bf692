import Turnstile.Proofs.Crowd.Play
import Turnstile.Proofs.Guard.Visit
import Turnstile.Proofs.Registry.Ledger

/-!
Visitors with one key agree on its result.

Any number of visits present the same key, and their steps come in any order. Locks may run out, be broken from
outside or be given back late; calls may fail; handlers may run more than once and give different results. As
long as the record stands from its creation on, it is resolved at most once. Whoever resolved it returns the
result that it stored, and everybody else who returns a result decodes the text that stands there.

The lock takes no part in the argument. It rests on the record alone: a result replaces the pending text, which
is created once, so there is one result, and a caller that comes too late reads it.
-/

namespace Turnstile

variable {α τ : Type} {k : String}

/-- A text that a visitor may store: that of a result its operation gave. -/
def Authored (visits : Nat → Visit τ) (past : List (Note (Except Failure τ))) (i : Nat) (text : String) : Prop :=
  ∃ result value, (∃ time, ⟨i, time, .worked (.ok result)⟩ ∈ past) ∧
    (visits i).codec.encode result = .ok value ∧ text = (Record.resolved value).text

/-- What holds of the record while visitors work. -/
structure Agreed (visits : Nat → Visit τ) (k : String) (life : Span) (v : Scene α (Except Failure τ)) : Prop where
  ledger : Ledger k life v
  stands : Stands k v
  authored : ∀ write ∈ writes k v.past, write.text = Record.placeholder ∨
    Authored visits v.past write.caller write.text

/-- What visitors may do: touch the record by its rule, and store only what is theirs. -/
structure AgreementRule (visits : Nat → Visit τ) (k : String) (life : Span) (i : Nat)
    (v : Scene α (Except Failure τ)) (doing : Doing) : Prop where
  record : RecordRule k life doing
  storing : ∀ text, doing = .calling (.compareAndSet (recordKey k) Record.placeholder text life) →
    Authored visits v.past i text

/-- A caller's own result is what was stored. -/
def Stored (visits : Nat → Visit τ) (k : String) (i : Nat) (result : τ)
    (past : List (Note (Except Failure τ))) : Prop :=
  ∃ write ∈ writes k past, write.caller = i ∧ (∃ time, ⟨i, time, .worked (.ok result)⟩ ∈ past) ∧
    ∃ value, (visits i).codec.encode result = .ok value ∧ write.text = (Record.resolved value).text

/-- A value that was stored as the result. -/
def Kept (k : String) (value : Json.Value) (past : List (Note (Except Failure τ))) : Prop :=
  ∃ write ∈ writes k past, Record.read write.text = .ok (.resolved value)

/-- What a visitor's result is worth. -/
def Vouched (visits : Nat → Visit τ) (k : String) (i : Nat) (past : List (Note (Except Failure τ))) :
    τ × Bool → Prop
  | (result, false) => Stored visits k i result past
  | (result, true) => ∃ value, Kept k value past ∧ (visits i).codec.decode value = .ok result

section

variable {visits : Nat → Visit τ} {life : Span} {i : Nat} {v v' : Scene α (Except Failure τ)}

/-- A text stays somebody's own when more is noted, since the run that gave it is among the notes. -/
theorem authored_mono {past past' : List (Note (Except Failure τ))} (more : past ⊆ past')
    {text : String} (authored : Authored visits past i text) : Authored visits past' i text := by
  obtain ⟨result, value, ⟨time, noted⟩, is⟩ := authored
  exact ⟨result, value, ⟨time, more noted⟩, is⟩

/-- A value that was stored stays stored, as what was written stays in the ledger. -/
theorem kept_mono {past past' : List (Note (Except Failure τ))} (more : past ⊆ past')
    {value : Json.Value} (kept : Kept k value past) : Kept k value past' := by
  obtain ⟨write, written, is⟩ := kept
  exact ⟨write, Ledger.mem_mono more written, is⟩

/-- What a result is worth does not change when more is noted: its own run and what was written are both told by notes. -/
theorem vouched_mono {past past' : List (Note (Except Failure τ))} (more : past ⊆ past')
    {outcome : τ × Bool} (vouched : Vouched visits k i past outcome) : Vouched visits k i past' outcome := by
  obtain ⟨result, _ | _⟩ := outcome
  · obtain ⟨write, written, mine, ⟨time, noted⟩, is⟩ := vouched
    exact ⟨write, Ledger.mem_mono more written, mine, ⟨time, more noted⟩, is⟩
  · obtain ⟨value, kept, is⟩ := vouched
    exact ⟨value, kept_mono more kept, is⟩

/-- Visitors may do what they like at other keys. Neither half of the rule speaks of a call that does not touch the
record. -/
theorem agreementRule_elsewhere {c : Call} (elsewhere : c.key? ≠ some (recordKey k)) :
    AgreementRule visits k life i v (.calling c) where
  record touched := absurd touched elsewhere
  storing text is := by
    cases is
    exact absurd rfl elsewhere

/-- A result that was written to a record that stands is what the record shows, because a result is the last thing that
is written. -/
theorem Agreed.shown {write : Write} (agreed : Agreed visits k life v) (written : write ∈ writes k v.past)
    (result : write.text ≠ Record.placeholder) : v.record = some (write.entry life) := by
  rw [agreed.ledger.record_of_stands agreed.stands, agreed.ledger.standing.head_of_result written result]
  rfl

variable [TokenNumber α]

/-- A deed of a visitor leaves the record agreed on. It keeps the ledger, and if it writes a result, this is one that
its own operation gave. -/
theorem Agreed.own {deed : Deed (Except Failure τ)} (agreed : Agreed visits k life v)
    (rule : AgreementRule visits k life i v deed.doing) (did : Scene.Own k i deed v v') (stands : Stands k v') :
    Agreed visits k life v' where
  ledger := agreed.ledger.own agreed.stands rule.record did
  stands := stands
  authored write written := by
    rcases Ledger.mem_own did written with old | new
    · exact (agreed.authored write old).imp id (authored_mono did.more)
    · obtain ⟨mine, ⟨pending, _⟩ | ⟨_, replaced⟩⟩ := Ledger.write_of_rule rule.record new
      · exact .inl pending
      · refine .inr (authored_mono did.more ?_)
        rw [mine]
        exact rule.storing write.text (by rw [replaced]; rfl)

/-- So does a call from outside at another key: it writes nothing, and the record is what it was. -/
theorem Agreed.outside {c : Call} (agreed : Agreed visits k life v) (elsewhere : c.key? ≠ some (recordKey k))
    (moved : Scene.Outside k c v v') (stands : Stands k v') : Agreed visits k life v' where
  ledger := agreed.ledger.outside elsewhere moved
  stands := stands
  authored := moved.past ▸ agreed.authored

/-- The conduct of visitors with one key while its record stands. -/
def agreement (visits : Nat → Visit τ) (k : String) (life : Span) : Conduct α (Except Failure τ) where
  key := k
  fair move _ v' := move.Spares (recordKey k) ∧ Stands k v'
  inv := Agreed visits k life
  may := AgreementRule visits k life
  rely := Scene.Onward
  onward _ _ _ moved := moved
  rely_refl := Scene.Onward.refl
  rely_trans _ _ _ _ := Scene.Onward.trans
  own _ _ _ _ agreed rule did fair := ⟨agreed.own rule did fair.2, fun _ other => did.onward other⟩
  outside _ _ _ agreed moved fair :=
    ⟨agreed.outside fair.1 moved fair.2, fun _ => moved.onward⟩
  waited _ _ agreed ahead fair :=
    ⟨{ agreed with ledger := agreed.ledger.waited ahead, stands := fair.2 }, fun _ => Scene.onward_waited ahead⟩
  broke _ _ _ _ _ _ _ _ _ _ _ _ := ⟨trivial, nofun⟩

/-- What is vouched for now is vouched for from now on, whatever others do. -/
theorem henceforth_vouched {outcome : τ × Bool} (now : Vouched visits k i v.past outcome) :
    (agreement visits k life).Henceforth i v fun v => Vouched visits k i v.past outcome :=
  fun _ moved _ => vouched_mono moved.more now

/-- What a caller has read is kept: the text that it saw is the one written last, so some write reads as the value. -/
theorem kept_of_read {text : Option String} {value : Json.Value} {past : List (Note (Except Failure τ))}
    (seen : text = (writes k past).head?.map Write.text)
    (read : Registry.readRecord text = .ok (some (.resolved value))) : Kept k value past := by
  cases text with
  | none => cases read
  | some text =>
    obtain ⟨write, last, is⟩ := Option.map_eq_some_iff.mp seen.symm
    refine ⟨write, List.mem_of_head? last, ?_⟩
    rw [is]
    simp only [Registry.readRecord] at read
    split at read
    · rename_i record parsed
      cases read
      exact parsed
    · cases read

/-- Who has read a record knows that it was written, for the text that was seen is what was written last. -/
theorem written_of_read {text : Option String} {record : Record} {past : List (Note (Except Failure τ))}
    (seen : text = (writes k past).head?.map Write.text)
    (read : Registry.readRecord text = .ok (some record)) : writes k past ≠ [] := by
  intro unwritten
  rw [seen, unwritten] at read
  cases read

/-- What a look at the record tells: whoever knew of it finds it, and a result that is found is kept. -/
structure Sighted (k : String) (known : Prop) (found : Option Record) (past : List (Note (Except Failure τ))) :
    Prop where
  unmissed : known → found ≠ none
  recorded : found ≠ none → writes k past ≠ []
  kept : ∀ value, found = some (.resolved value) → Kept k value past

/-- What a look has told stays true: nothing that was written is taken back. -/
theorem sighted_mono {known : Prop} {found : Option Record} (past past' : List (Note (Except Failure τ)))
    (more : past <:+ past') (sighted : Sighted k known found past) : Sighted k known found past' where
  unmissed := sighted.unmissed
  recorded there := Ledger.written_mono more.subset (sighted.recorded there)
  kept value is := kept_mono more.subset (sighted.kept value is)

/-- Looking the record up. The answer is what was written last, so a record that was known of can not be missed, and a
result that is found was stored. -/
theorem agreement_find (g : Guard) :
    (agreement (α := α) visits k g.registry.life).Meets i
      (fun v' found => Sighted k (writes k v.past ≠ []) found v'.past) (fun _ _ => True) (g.registry.find? k) v := by
  refine Conduct.meets_find fun v₁ moved₁ agreed₁ => ?_
  refine ⟨{ record := fun _ => .inl rfl, storing := nofun }, fun reply v₂ did _ _ => ?_⟩
  cases reply with
  | error why => exact fun _ _ _ => trivial
  | ok text =>
    have seen := agreed₁.ledger.reply_of_get agreed₁.stands did
    cases read : Registry.readRecord text with
    | error why =>
      simp only [Except.bind, read, Conduct.either]
      exact fun _ _ _ => trivial
    | ok found =>
      simp only [Except.bind, read, Conduct.either]
      refine (Conduct.lasting_of_past sighted_mono).henceforth ⟨?unmissed, ?recorded, ?kept⟩
      case unmissed =>
        -- A record that was written before stands, so it was there to be read.
        rintro known rfl
        have written := Ledger.written_mono did.more (Ledger.written_mono moved₁.more known)
        cases last : (writes k v₂.past).head? with
        | none => exact written (List.head?_eq_none_iff.mp last)
        | some write =>
          rw [seen, last] at read
          simp only [Option.map_some, Registry.readRecord] at read
          split at read <;> cases read
      case recorded =>
        intro there
        obtain ⟨record, is⟩ := Option.ne_none_iff_exists'.mp there
        exact written_of_read seen (is ▸ read)
      case kept =>
        intro value is
        exact kept_of_read seen (is ▸ read)

/-- What a look at the key tells: it has a record now, and a result that was found is kept. -/
structure Found (k : String) (found : Option Json.Value) (past : List (Note (Except Failure τ))) : Prop where
  recorded : writes k past ≠ []
  kept : ∀ value, found = some value → Kept k value past

/-- What a look at the key has told stays true as well. -/
theorem found_mono {found : Option Json.Value} (past past' : List (Note (Except Failure τ)))
    (more : past <:+ past') (known : Found k found past) : Found k found past' where
  recorded := Ledger.written_mono more.subset known.recorded
  kept value is := kept_mono more.subset (known.kept value is)

/-- The key is created when it is seen first. Whether it was created now or by somebody else, there is a record
afterwards; a route that issues its keys ends here. -/
theorem agreement_firstSight (g : Guard) (origin : KeyOrigin) :
    (agreement (α := α) visits k g.registry.life).Meets i (fun v _ => Found k none v.past)
      (fun _ _ => True) (g.firstSight k origin) v := by
  cases origin with
  | server => exact Conduct.meets_throw fun _ _ _ => trivial
  | client =>
    refine Conduct.Meets.map _ (Conduct.meets_ask fun v₁ _ agreed₁ => ?_)
    refine ⟨{ record := fun _ => .inr (.inl rfl), storing := nofun }, fun reply v₂ did _ _ => ?_⟩
    cases reply with
    | error why => exact fun _ _ _ => trivial
    | ok created =>
      have found : Found k none v₂.past := {
        recorded := agreed₁.ledger.written_of_issue agreed₁.stands did
        kept := nofun }
      exact (Conduct.lasting_of_past found_mono).henceforth found

/-- A look at the key. If a record is found, that settles it; if none is, the key is created, or the call ends. -/
theorem agreement_kept (g : Guard) (origin : KeyOrigin) :
    (agreement (α := α) visits k g.registry.life).Meets i (fun v found => Found k found v.past)
      (fun _ _ => True) (g.kept k origin) v := by
  have lasting {v : Scene α (Except Failure τ)} {found : Option Json.Value} (now : Found k found v.past) :
      (agreement (α := α) visits k g.registry.life).Henceforth i v fun v => Found k found v.past :=
    (Conduct.lasting_of_past found_mono).henceforth now
  unfold Guard.kept
  refine Conduct.Meets.bind (Conduct.Meets.weaken (agreement_find g) ?_ fun _ _ _ _ => trivial)
  intro v' found _ sighted
  match found, sighted with
  | some (.resolved value), sighted =>
    refine Conduct.meets_pure (lasting { recorded := sighted.recorded nofun, kept := fun other is => ?_ })
    exact Option.some.inj is ▸ sighted.kept value rfl
  | some .pending, sighted =>
    exact Conduct.meets_pure (lasting { recorded := sighted.recorded nofun, kept := nofun })
  | none, _ => exact Conduct.Meets.map _ (agreement_firstSight g origin)

/-- What a resolution tells: the caller's value was stored, or another one is kept. -/
def ResolvedTo (k : String) (i : Nat) (value : Json.Value) (resolution : Resolution)
    (past : List (Note (Except Failure τ))) : Prop :=
  match resolution with
  | .stored => ∃ write ∈ writes k past, write.caller = i ∧ write.text = (Record.resolved value).text
  | .alreadyResolved other => Kept k other past

/-- What a resolution has told stays true, for both of its answers speak of what was written. -/
theorem resolvedTo_mono {value : Json.Value} {resolution : Resolution} (past past' : List (Note (Except Failure τ)))
    (more : past <:+ past') (told : ResolvedTo k i value resolution past) : ResolvedTo k i value resolution past' := by
  cases resolution with
  | stored =>
    obtain ⟨write, written, is⟩ := told
    exact ⟨write, Ledger.mem_mono more.subset written, is⟩
  | alreadyResolved other => exact kept_mono more.subset told

/-- Resolving a key that has a record. Either the caller's text is put in place of the pending one, or the swap is
refused; then somebody's result stands there, and the look behind it finds that result. -/
theorem agreement_resolve (g : Guard) (value : Json.Value) (known : writes k v.past ≠ [])
    (authored : Authored visits v.past i (Record.resolved value).text) :
    (agreement (α := α) visits k g.registry.life).Meets i
      (fun v resolution => ResolvedTo k i value resolution v.past) (fun _ _ => True)
      (g.registry.resolve k value) v := by
  have lasting {v : Scene α (Except Failure τ)} {resolution : Resolution}
      (now : ResolvedTo k i value resolution v.past) :
      (agreement (α := α) visits k g.registry.life).Henceforth i v
        fun v => ResolvedTo k i value resolution v.past :=
    (Conduct.lasting_of_past resolvedTo_mono).henceforth now
  unfold Registry.resolve
  refine Conduct.Meets.bind (Conduct.meets_ask fun v₁ moved₁ agreed₁ => ?_)
  refine ⟨{ record := fun _ => .inr (.inr ⟨_, rfl, Record.text_ne_placeholder value⟩), storing := ?storing },
    fun reply v₂ did _ _ => ?_⟩
  case storing =>
    rintro text ⟨⟩
    exact authored_mono moved₁.more authored
  · rcases reply with why | _ | _
    · exact fun _ _ _ => trivial
    · -- Somebody else's result stands, for the record is there and does not show the pending text.
      intro v₃ moved₃ _
      have written : writes k v₃.past ≠ [] :=
        Ledger.written_mono moved₃.more (Ledger.written_mono did.more (Ledger.written_mono moved₁.more known))
      refine Conduct.Meets.bind (Conduct.Meets.weaken (agreement_find g) ?_ fun _ _ _ _ => trivial)
      intro v₄ found _ sighted
      match found, sighted with
      | some (.resolved other), sighted => exact Conduct.meets_pure (lasting (sighted.kept other rfl))
      | some .pending, _ => exact Conduct.meets_throw fun _ _ _ => trivial
      | none, sighted => exact absurd rfl (sighted.unmissed written)
    · intro v₃ moved₃ _
      refine Conduct.meets_pure (lasting ⟨⟨i, v₁.now, (Record.resolved value).text⟩, ?_, rfl, rfl⟩)
      refine Ledger.mem_mono moved₃.more ?_
      rw [did.past]
      simp [writes, Note.write?]

/-- Decoding a value that is kept: if it can be decoded, the result is a replay of what was stored. -/
theorem agreement_decoded {value : Json.Value} (kept : Kept k value v.past) :
    (agreement (α := α) visits k life).Meets i (fun v result => Vouched visits k i v.past (result, true))
      (fun _ _ => True) (Guard.decoded (visits i).codec value) v := by
  refine Conduct.meets_ofResult fun v' moved _ => ?_
  cases decoded : (visits i).codec.decode value with
  | error cause => trivial
  | ok result => exact ⟨value, kept_mono moved.more kept, decoded⟩

/-- What a visitor does under the lock. A result that is found is replayed. Otherwise its operation runs, and what it
gives is authored by that run; the resolution then tells whether it was stored or another one is kept. -/
theorem agreement_locked (g : Guard) (origin : KeyOrigin) :
    (agreement (α := α) visits k g.registry.life).Meets i (fun v outcome => Vouched visits k i v.past outcome)
      (fun _ _ => True) (g.locked (visits i).codec k origin Attempt.work) v := by
  unfold Guard.locked
  refine Conduct.Meets.bind (Conduct.Meets.weaken (agreement_kept g origin) ?_ fun _ _ _ _ => trivial)
  intro v₁ found _ known
  match found, known with
  | some value, known => exact Conduct.Meets.map _ (agreement_decoded (known.kept value rfl))
  | none, known =>
    refine Conduct.Meets.bind (Conduct.meets_work fun v₂ moved₂ _ => ?_)
    refine ⟨{ record := trivial, storing := nofun }, fun answer v₃ did₃ _ _ => ?_⟩
    cases answer with
    | error why => exact fun _ _ _ => trivial
    | ok result =>
      have worked : ⟨i, v₂.now, .worked (.ok result)⟩ ∈ v₃.past := did₃.noted
      intro v₄ moved₄ _
      refine Conduct.Meets.bind (Conduct.meets_ofResult fun v₅ moved₅ _ => ?_)
      cases encoded : (visits i).codec.encode result with
      | error cause => trivial
      | ok value =>
        have noted : ⟨i, v₂.now, .worked (.ok result)⟩ ∈ v₅.past := moved₅.more (moved₄.more worked)
        have written : writes k v₅.past ≠ [] :=
          Ledger.written_mono moved₅.more (Ledger.written_mono moved₄.more
            (Ledger.written_mono did₃.more (Ledger.written_mono moved₂.more known.recorded)))
        have resolves := agreement_resolve (i := i) g value written ⟨result, value, ⟨_, noted⟩, encoded, rfl⟩
        refine Conduct.Meets.bind (Conduct.Meets.weaken
          (resolves.remember (fun _ _ more => @List.IsSuffix.subset _ _ _ more ⟨i, v₂.now, .worked (.ok result)⟩) noted) ?_
          fun _ _ _ _ => trivial)
        rintro v₆ resolution _ ⟨told, noted⟩
        match resolution, told with
        | .stored, ⟨write, here, mine, is⟩ =>
          exact Conduct.meets_pure (henceforth_vouched ⟨write, here, mine, ⟨_, noted⟩, value, encoded, is⟩)
        | .alreadyResolved other, kept => exact Conduct.Meets.map _ (agreement_decoded kept)

/-- What a visitor does once it is admitted. The first look may end it with a replay; the lock and its release touch
another key, so they are free; in between stands what is done under the lock. -/
theorem agreement_once (g : Guard) (origin : KeyOrigin) :
    (agreement (α := α) visits k g.registry.life).Meets i (fun v outcome => Vouched visits k i v.past outcome)
      (fun _ _ => True) (g.once (visits i).codec k origin Attempt.work) v := by
  unfold Guard.once
  refine Conduct.Meets.bind (Conduct.Meets.weaken (agreement_kept g origin) ?_ fun _ _ _ _ => trivial)
  intro v₁ found _ known
  match found, known with
  | some value, known => exact Conduct.Meets.map _ (agreement_decoded (known.kept value rfl))
  | none, known =>
    refine Conduct.Meets.bind (Conduct.meets_acquire fun v₂ _ _ => ⟨{ record := trivial, storing := nofun }, ?_⟩)
    intro token v₃ _ _ _ v₄ _ _
    refine ⟨agreementRule_elsewhere (lock_elsewhere k k), fun reply v₅ _ _ _ v₆ _ _ => ?_⟩
    cases Lease.granted? k token reply with
    | none => exact Conduct.meets_throw fun _ _ _ => trivial
    | some lease =>
      refine Conduct.meets_leased (Conduct.Meets.weaken (agreement_locked g origin) ?_ ?_)
      · intro v₇ outcome _ vouched v₈ moved₈ _
        refine ⟨agreementRule_elsewhere (lock_elsewhere k lease.key), fun _ v₉ did₉ _ _ => ?_⟩
        exact henceforth_vouched (vouched_mono did₉.more (vouched_mono moved₈.more vouched))
      · intro _ _ _ _ _ _ _
        exact ⟨agreementRule_elsewhere (lock_elsewhere k lease.key), fun _ _ _ _ _ _ _ _ => trivial⟩

/-- A visitor follows the rule, and its result is vouched for: buckets have keys of their own, and the rest is what an
admitted visitor does. -/
theorem safe_visit (g : Guard) :
    (agreement visits k g.registry.life).Safe i
      (Conduct.either (fun v r => Vouched visits k i v.past (r.result, r.replayed)) fun _ _ => True)
      ((visits i).program g k) v := by
  have always : (agreement (α := α) visits k g.registry.life).Lasting i fun _ => True := fun _ _ _ _ _ => trivial
  refine Conduct.meets_visit g k (visits i) always trivial ?_ ?_
    (fun _ _ _ _ _ _ _ => trivial) (fun _ _ _ => trivial) (fun _ origin _ _ _ _ => agreement_once g origin)
  · intro v c _ _ touched
    exact agreementRule_elsewhere (Visit.bucket_elsewhere touched k).1
  · exact fun _ _ _ => { record := trivial, storing := nofun }

/-- Whatever the order of steps, and whichever calls fail and locks run out: while the record of a key stands, at
most one visitor returns a result that is not replayed. There is one text in the record for all visitors who
return a result: it is that of the first visitor's result, and what all others return is decoded from it. -/
theorem visitors_agree (g : Guard) (visits : Nat → Visit τ)
    {w w' : Crowd α (Except Failure τ) (Except Failure (Guarded τ))}
    (callers : ∀ i, w.callers i = (visits i).program g k) (distinct : w.store.entries.Distinct)
    (nobody : w.past = []) (free : w.store.live? w.now (recordKey k) = none)
    (course : Crowd.Course k (fun move _ v' => move.Spares (recordKey k) ∧ Stands k v') w w') :
    (∀ i j r s, w'.callers i = .done (.ok r) → w'.callers j = .done (.ok s) →
      r.replayed = false → s.replayed = false → i = j) ∧
      ∀ i r, w'.callers i = .done (.ok r) →
        ∃ e text, w'.store.live? w'.now (recordKey k) = some e ∧ e.text? = some text ∧
          (r.replayed = false → (∃ time, ⟨i, time, .worked (.ok r.result)⟩ ∈ w'.past) ∧
            ∃ value, (visits i).codec.encode r.result = .ok value ∧ text = (Record.resolved value).text) ∧
          (r.replayed = true → ∃ value, Record.read text = .ok (.resolved value) ∧
            (visits i).codec.decode value = .ok r.result) := by
  have unwritten : writes k (w.scene k).past = [] := by simp [Crowd.scene, nobody, writes]
  have starts : Agreed visits k g.registry.life (w.scene k) := {
    ledger := Ledger.start nobody free
    stands := fun written => absurd unwritten written
    authored := by simp [unwritten] }
  have safe (i : Nat) : (agreement visits k g.registry.life).Safe i
      (Conduct.either (fun v r => Vouched visits k i v.past (r.result, r.replayed)) fun _ _ => True)
      (w.callers i) (w.scene k) := by
    rw [callers]
    exact safe_visit g
  obtain ⟨_, (agreed : Agreed visits k g.registry.life (w'.scene k)), conducts⟩ :=
    (agreement visits k g.registry.life).course_safe course distinct starts safe
  have vouched (i : Nat) (r : Guarded τ) (done : w'.callers i = .done (.ok r)) :
      Vouched visits k i w'.past (r.result, r.replayed) := by
    have mine := conducts i
    rw [done] at mine
    exact Conduct.Henceforth.here mine agreed
  constructor
  · intro i j r s done done' executed executed'
    have mine := vouched i r done
    have other := vouched j s done'
    rw [executed] at mine
    rw [executed'] at other
    obtain ⟨write, written, is, _, value, _, text⟩ := mine
    obtain ⟨write', written', is', _, value', _, text'⟩ := other
    have last := agreed.ledger.standing.head_of_result written (text ▸ Record.text_ne_placeholder value)
    have last' := agreed.ledger.standing.head_of_result written' (text' ▸ Record.text_ne_placeholder value')
    rw [last] at last'
    rw [← is, ← is', Option.some.inj last']
  · intro i r done
    have mine := vouched i r done
    cases replayed : r.replayed with
    | false =>
      rw [replayed] at mine
      obtain ⟨write, written, _, worked, value, encoded, text⟩ := mine
      have shown := agreed.shown written (text ▸ Record.text_ne_placeholder value)
      refine ⟨_, write.text, shown, rfl, fun _ => ⟨worked, value, encoded, text⟩, fun again => ?_⟩
      cases again
    | true =>
      rw [replayed] at mine
      obtain ⟨value, ⟨write, written, read⟩, decoded⟩ := mine
      have result : write.text ≠ Record.placeholder := by
        intro pending
        rw [pending, Record.read_placeholder] at read
        cases read
      refine ⟨_, write.text, agreed.shown written result, rfl, fun fresh => ?_, fun _ => ⟨value, read, decoded⟩⟩
      cases fresh

end

/-- The first visitor's lock runs out while its operation runs, the second runs the operation again and is the
first to resolve the key. -/
def bothRan : List (Cue (Except Failure String)) :=
  [.call 0, .call 0, .call 0, .name 0 "a", .call 0, .call 0, .wait 6000000000,
    .call 1, .call 1, .name 1 "b", .call 1, .call 1, .work 0 (.ok "first"), .work 1 (.ok "second"),
    .call 1, .call 0, .call 0, .call 0, .call 1]

/-- In that run both operations have given a result. The first visitor returns the second one's as a replay, and that is
what the record shows. -/
theorem visitors_agree_bothRan :
    ∃ w', (textVisitors "order-1").play "order-1"
        (fun move _ v' => decide (move.Spares (recordKey "order-1") ∧ Stands "order-1" v')) bothRan = some w' ∧
      ∃ r s e text, w'.callers 0 = .done (.ok r) ∧ w'.callers 1 = .done (.ok s) ∧ r.result = "second" ∧
        r.replayed = true ∧ s.replayed = false ∧ w'.store.live? w'.now (recordKey "order-1") = some e ∧
        e.text? = some text ∧ ∃ value, Record.read text = .ok (.resolved value) ∧
          Codec.text.decode value = .ok r.result := by
  have played : ((textVisitors "order-1").play "order-1"
      (fun move _ v' => decide (move.Spares (recordKey "order-1") ∧ Stands "order-1" v')) bothRan).map
        (fun w => ((w.callers 0).won?.map fun r => (r.result, r.replayed),
          (w.callers 1).won?.map fun r => (r.result, r.replayed))) =
      some (some ("second", true), some ("second", false)) := by decide +kernel
  obtain ⟨w', is, ended⟩ := Option.map_eq_some_iff.mp played
  obtain ⟨ended₀, ended₁⟩ := Prod.mk.inj ended
  obtain ⟨r, won₀, shown₀⟩ := Option.map_eq_some_iff.mp ended₀
  obtain ⟨s, won₁, shown₁⟩ := Option.map_eq_some_iff.mp ended₁
  have done₀ := Program.done_of_won won₀
  have replayed : r.replayed = true := (Prod.mk.inj shown₀).2
  have course : Crowd.Course "order-1"
      (fun move _ v' => move.Spares (recordKey "order-1") ∧ Stands "order-1" v') (textVisitors "order-1") w' :=
    Crowd.course_of_play (fun _ _ _ => of_decide_eq_true) is
  obtain ⟨_, agree⟩ := visitors_agree briefGuard (fun _ => textVisit) (fun _ => rfl) Table.distinct_empty rfl rfl
    course
  obtain ⟨e, text, live, shown, _, others⟩ := agree 0 r done₀
  exact ⟨w', is, r, s, e, text, done₀, Program.done_of_won won₁, (Prod.mk.inj shown₀).1, replayed,
    (Prod.mk.inj shown₁).2, live, shown, others replayed⟩

end Turnstile
