import Turnstile.Proofs.Guard.Exclusive

/-!
An operation succeeds once for a key.

Visitors with one key come in any number and take their steps in any order, and nothing disturbs them. The key may be
the visitors' own or one that the server makes, and it may have been issued before they come. Then whoever runs the
operation holds the lock and has seen under the lock that there is no result. So no two operations run at one time,
none runs after one has succeeded, and whoever looks the key up after the result was stored returns it.
-/

namespace Turnstile

variable {α τ : Type} {k : String}

section

variable {visits : Nat → Visit τ} {life : Span} {i : Nat} {v : Scene α (Except Failure τ)} [TokenNumber α]

/-! What each part of a visit tells. -/

/-- Whoever holds the lock knows of no result. -/
def Unresolved (k : String) (i : Nat) (past : List (Note (Except Failure τ))) : Prop :=
  Holding k i past → ¬ HasResult k past

/-- Whoever holds the lock goes on knowing of no result while others move, for nobody but the holder stores one. -/
theorem unresolved_lasting :
    (onceOnly (α := α) visits k life).Lasting i fun v => Unresolved k i v.past := by
  intro v v' moved _ unresolved holding result
  have before := holding_before moved.onward holding
  exact unresolved before (moved.result before result)

/-- What is carried through looks at the record: a condition that lasts, and that calls at the record keep. -/
structure Carried (visits : Nat → Visit τ) (k : String) (life : Span) (i : Nat)
    (holds : Scene α (Except Failure τ) → Prop) : Prop where
  lasting : (onceOnly visits k life).Lasting i holds
  own : ∀ v v' c reply, c.key? = some (recordKey k) → Scene.Own k i (.called c reply) v v' → Fenced k v' →
    holds v → holds v'

/-- What a look at the record finds: a result that can be decoded, or none, and then the caller came early. -/
structure Look (visits : Nat → Visit τ) (k : String) (i : Nat) (found : Option Record)
    (past : List (Note (Except Failure τ))) : Prop where
  decodable : ∀ value, found = some (.resolved value) → ∃ result, (visits i).codec.decode value = .ok result
  early : (∀ value, found ≠ some (.resolved value)) → CameEarly k i past ∧ Unresolved k i past
  written : found ≠ none → writes k past ≠ []

/-- A look at the record. It reads what was written last, and as whoever resolves the record holds the lock, a holder that
reads no result knows from then on that there is none. -/
theorem once_find (g : Guard) {holds : Scene α (Except Failure τ) → Prop}
    (carried : Carried visits k g.registry.life i holds) (now : holds v) (early : ¬ CameLate k i v.past) :
    (onceOnly visits k g.registry.life).Meets i
      (fun v' found => holds v' ∧ Look visits k i found v'.past ∧
        (HasResult k v.past → ∃ value, found = some (.resolved value)))
      (fun _ _ => False) (g.registry.find? k) v := by
  refine Conduct.meets_find fun v₁ moved₁ exclusive₁ => ?_
  have early₁ : ¬ CameLate k i v₁.past := fun late => early (late_before moved₁.onward late)
  refine ⟨onceRule_get early₁, fun reply v₂ did fair exclusive₂ => ?_⟩
  cases reply with
  | error why => exact fair.1.elim
  | ok text =>
    have seen := exclusive₁.ledger.reply_of_get exclusive₁.stands did
    have same : writes k v₂.past = writes k v₁.past := by rw [did.past, Ledger.writes_cons _ rfl]
    have now₂ : holds v₂ :=
      carried.own v₁ v₂ _ _ rfl did exclusive₂.fenced (carried.lasting v v₁ moved₁ exclusive₁ now)
    intro v₃ moved₃ exclusive₃
    have now₃ : holds v₃ := carried.lasting v₂ v₃ moved₃ exclusive₃ now₂
    have unresolved (none : ¬ HasResult k v₁.past) : CameEarly k i v₃.past ∧ Unresolved k i v₃.past := by
      have early₂ : CameEarly k i v₂.past := by
        rw [did.past]
        exact early_of_look (by simp [Note.isLook]) early₁ none
      refine ⟨early_suffix moved₃.onward.suffix early₂, unresolved_lasting v₂ v₃ moved₃ exclusive₃ fun _ => ?_⟩
      unfold HasResult at none ⊢
      rwa [same]
    have onward (result : HasResult k v.past) : HasResult k v₁.past := hasResult_mono moved₁.onward.more result
    rw [same] at seen
    rcases exclusive₁.shown with ⟨unwritten, none⟩ | ⟨pending, none⟩ | ⟨result, resolved, last, value, read, decodes⟩
    · rw [unwritten] at seen
      rw [seen]
      refine ⟨now₃, ?_, fun result => absurd (onward result) none⟩
      exact {
        decodable := fun value is => by cases is
        early := fun _ => unresolved none
        written := fun there => absurd rfl there }
    · rw [seen, pending]
      simp only [Except.bind, Registry.readRecord, Record.read_placeholder]
      have written₂ : writes k v₂.past ≠ [] := by
        intro unwritten
        rw [← same, unwritten] at pending
        cases pending
      refine ⟨now₃, ?_, fun result => absurd (onward result) none⟩
      exact {
        decodable := fun value is => by cases is
        early := fun _ => unresolved none
        written := fun _ => Ledger.written_mono moved₃.onward.more written₂ }
    · rw [seen, last]
      simp only [Except.bind, Registry.readRecord, read]
      have written₂ : writes k v₂.past ≠ [] := by
        obtain ⟨write, written, _⟩ := result
        rw [same]
        exact List.ne_nil_of_mem written
      refine ⟨now₃, ?_, fun _ => ⟨value, rfl⟩⟩
      exact {
        decodable := fun other is => by
          cases is
          exact decodes i
        early := fun not => absurd rfl (not value)
        written := fun _ => Ledger.written_mono moved₃.onward.more written₂ }

/-- Who has found no result came early; it knows of none and that there is a record. -/
structure Unserved (k : String) (i : Nat) (past : List (Note (Except Failure τ))) : Prop where
  early : CameEarly k i past
  unresolved : Unresolved k i past
  written : writes k past ≠ []

/-- Who has found no result goes on so while others move: who came early stays early, and records stay written. -/
theorem unserved_lasting : (onceOnly (α := α) visits k life).Lasting i fun v => Unserved k i v.past :=
  fun v v' moved exclusive unserved => {
    early := early_suffix moved.onward.suffix unserved.early
    unresolved := unresolved_lasting v v' moved exclusive unserved.unresolved
    written := Ledger.written_mono moved.onward.more unserved.written }

/-- The key is created when it is seen first, if that is for its client to do. Whether the call that issues it creates a
record or finds one, there is one afterwards; and as it writes no result, who knew of none still knows of none. -/
theorem once_firstSight (g : Guard) (origin : KeyOrigin) {holds : Scene α (Except Failure τ) → Prop}
    (carried : Carried visits k g.registry.life i holds) (now : holds v) (early : CameEarly k i v.past)
    (unresolved : Unresolved k i v.past) :
    (onceOnly visits k g.registry.life).Meets i (fun v' _ => holds v' ∧ Unserved k i v'.past)
      (fun v' _ => holds v' ∧ CameEarly k i v'.past) (g.firstSight k origin) v := by
  cases origin with
  | server =>
    exact Conduct.meets_throw fun v' moved exclusive =>
      ⟨carried.lasting v v' moved exclusive now, early_suffix moved.onward.suffix early⟩
  | client =>
    refine Conduct.Meets.map _ (Conduct.meets_ask fun v₁ moved₁ exclusive₁ => ?_)
    have early₁ : CameEarly k i v₁.past := early_suffix moved₁.onward.suffix early
    refine ⟨onceRule_issue early₁.notLate, fun reply v₂ did fair exclusive₂ => ?_⟩
    cases reply with
    | error why => exact fair.1.elim
    | ok created =>
      have now₂ : holds v₂ :=
        carried.own v₁ v₂ _ _ rfl did exclusive₂.fenced (carried.lasting v v₁ moved₁ exclusive₁ now)
      have unresolved₂ : Unresolved k i v₂.past := by
        intro holding result
        rw [did.past] at holding result
        have before : Holding k i v₁.past :=
          holding_of_cons (.inl (by cases created <;> simp [Note.claim?, recordKey_ne_lockKey])) holding
        refine unresolved_lasting v v₁ moved₁ exclusive₁ unresolved before (hasResult_of_cons ?_ result)
        intro write written
        cases created with
        | false => cases written
        | true =>
          simp only [Note.write?, if_true, Option.some.injEq] at written
          rw [← written]
      have unserved₂ : Unserved k i v₂.past := {
        early := early_suffix did.suffix early₁
        unresolved := unresolved₂
        written := exclusive₁.ledger.written_of_issue exclusive₁.stands did }
      exact fun v₃ moved₃ exclusive₃ =>
        ⟨carried.lasting v₂ v₃ moved₃ exclusive₃ now₂, unserved_lasting v₂ v₃ moved₃ exclusive₃ unserved₂⟩

/-- A look at the key: it finds a result that can be decoded, or it finds none and then there is a record to resolve, or
the key is unknown and the caller came early. -/
theorem once_kept (g : Guard) (origin : KeyOrigin) {holds : Scene α (Except Failure τ) → Prop}
    (carried : Carried visits k g.registry.life i holds) (now : holds v) (early : ¬ CameLate k i v.past) :
    (onceOnly visits k g.registry.life).Meets i
      (fun v' found => holds v' ∧ (found = none → Unserved k i v'.past) ∧
        ∀ value, found = some value → ∃ result, (visits i).codec.decode value = .ok result)
      (fun v' _ => holds v' ∧ CameEarly k i v'.past) (g.kept k origin) v := by
  unfold Guard.kept
  refine Conduct.Meets.bind (Conduct.Meets.weaken (once_find g carried now early) ?_ fun _ _ _ => False.elim)
  rintro v₁ found exclusive₁ ⟨now₁, look, _⟩
  match found, look with
  | some (.resolved value), look =>
    refine Conduct.meets_pure fun v₂ moved₂ exclusive₂ => ⟨carried.lasting v₁ v₂ moved₂ exclusive₂ now₁, ?_, ?_⟩
    · exact nofun
    · intro other is
      cases is
      exact look.decodable value rfl
  | some .pending, look =>
    obtain ⟨early₁, unresolved₁⟩ := look.early nofun
    have unserved₁ : Unserved k i v₁.past := {
      early := early₁
      unresolved := unresolved₁
      written := look.written nofun }
    exact Conduct.meets_pure fun v₂ moved₂ exclusive₂ => ⟨carried.lasting v₁ v₂ moved₂ exclusive₂ now₁,
      fun _ => unserved_lasting v₁ v₂ moved₂ exclusive₂ unserved₁, nofun⟩
  | none, look =>
    obtain ⟨early₁, unresolved₁⟩ := look.early nofun
    refine Conduct.Meets.map _ (Conduct.Meets.weaken (once_firstSight g origin carried now₁ early₁ unresolved₁) ?_
      fun _ _ _ lost => lost)
    exact fun v₂ _ _ told => ⟨told.1, fun _ => told.2, nofun⟩

/-- Work under the lock is carried through looks at the record: others let its holder hold it, and a call at the record
neither gives the lock back nor runs the operation. -/
theorem working_carried : Carried (α := α) visits k life i fun v => Working k i v.past where
  lasting _ _ moved _ working := {
    holding := moved.holding working.holding
    early := early_suffix moved.onward.suffix working.early
    fresh := fun won => working.fresh (hasWon_before moved.onward won) }
  own v _ _ reply touched did fenced working := {
    holding := holding_own fenced did (fun _ => kept_of_record touched reply v.now) working.holding
    early := early_suffix did.suffix working.early
    fresh := fun won => working.fresh (hasWon_of_own did nofun won) }

/-- Resolving the key under the lock: afterwards the record has a result, and if it is another's it can be decoded. A
replacement is refused only where the record shows a result, for the record is there and does not show the pending
text. -/
theorem once_resolve (g : Guard) {value : Json.Value} (holding : Holding k i v.past) (early : CameEarly k i v.past)
    (written : writes k v.past ≠ []) (readable : Readable visits (Record.resolved value).text) :
    (onceOnly (α := α) visits k g.registry.life).Meets i
      (fun v' resolution => CameEarly k i v'.past ∧ HasResult k v'.past ∧
        ∀ other, resolution = .alreadyResolved other → ∃ result, (visits i).codec.decode other = .ok result)
      (fun _ _ => False) (g.registry.resolve k value) v := by
  have early_carried : Carried (α := α) visits k g.registry.life i fun v => CameEarly k i v.past := {
    lasting := fun _ _ moved _ => early_suffix moved.onward.suffix
    own := fun _ _ _ _ _ did _ => early_suffix did.suffix }
  unfold Registry.resolve
  refine Conduct.Meets.bind (Conduct.meets_ask fun v₁ moved₁ exclusive₁ => ?_)
  have early₁ : CameEarly k i v₁.past := early_suffix moved₁.onward.suffix early
  refine ⟨onceRule_replace early₁.notLate (moved₁.holding holding) readable, fun reply v₂ did fair _ => ?_⟩
  have early₂ : CameEarly k i v₂.past := early_suffix did.suffix early₁
  rcases reply with why | _ | _
  · exact fair.1.elim
  · -- The record is there and does not show the pending text, so it has a result.
    have result₁ : HasResult k v₁.past := by
      obtain ⟨_, decided, _⟩ := Deed.changes_at rfl did.record
      have unexpected := (Call.onEntry_replace_false decided).1
      rw [exclusive₁.ledger.text_of_stands exclusive₁.stands] at unexpected
      rcases exclusive₁.shown with ⟨unwritten, _⟩ | ⟨pending, _⟩ | ⟨result, _⟩
      · exact absurd unwritten (Ledger.written_mono moved₁.onward.more written)
      · exact absurd pending unexpected
      · exact result
    intro v₃ moved₃ _
    have result₃ : HasResult k v₃.past := hasResult_mono moved₃.onward.more (hasResult_mono did.more result₁)
    have early₃ : CameEarly k i v₃.past := early_suffix moved₃.onward.suffix early₂
    refine Conduct.Meets.bind (Conduct.Meets.weaken ((once_find g early_carried early₃ early₃.notLate).remember
      (fun _ _ more => hasResult_mono more.subset) result₃) ?_ fun _ _ _ lost => lost.1)
    rintro v₄ found _ ⟨⟨early₄, look, finds⟩, result₄⟩
    obtain ⟨other, rfl⟩ := finds result₃
    refine Conduct.meets_pure fun v₅ moved₅ _ => ⟨early_suffix moved₅.onward.suffix early₄,
      hasResult_mono moved₅.onward.more result₄, fun another is => ?_⟩
    cases is
    exact look.decodable other rfl
  · have result₂ : HasResult k v₂.past := by
      refine ⟨⟨i, v₁.now, (Record.resolved value).text⟩, ?_, Record.text_ne_placeholder value⟩
      rw [did.past]
      simp [writes, Note.write?]
    exact fun v₃ moved₃ _ => Conduct.meets_pure fun v₄ moved₄ _ =>
      ⟨early_suffix moved₄.onward.suffix (early_suffix moved₃.onward.suffix early₂),
        hasResult_mono moved₄.onward.more (hasResult_mono moved₃.onward.more result₂), fun other is => by cases is⟩

/-- Who may give the lock back may still do so when others have moved: their notes tell of no success of its own, and a
result that is stored stays. -/
theorem leaving_lasting : (onceOnly (α := α) visits k life).Lasting i fun v => Leaving k i v.past :=
  fun _ _ moved _ leaving => {
    early := early_suffix moved.onward.suffix leaving.early
    stored := fun won => hasResult_mono moved.onward.more (leaving.stored (hasWon_before moved.onward won)) }

/-- What a visitor does under the lock. It looks again, and when it finds no result there is none as long as it holds the
lock. So nobody has succeeded when its operation runs, and what the operation gives is stored before the lock is given
back. -/
theorem once_locked (g : Guard) (origin : KeyOrigin) (working : Working k i v.past) :
    (onceOnly (α := α) visits k g.registry.life).Meets i (fun v' _ => Leaving k i v'.past)
      (fun v' _ => Leaving k i v'.past) (g.locked (visits i).codec k origin Attempt.work) v := by
  unfold Guard.locked
  refine Conduct.Meets.bind (Conduct.Meets.weaken
    (once_kept g origin working_carried working working.early.notLate) ?_ fun _ _ _ told => told.1.leaving)
  rintro v₁ found _ ⟨working₁, unserved, decodes⟩
  match found, unserved, decodes with
  | some value, _, decodes =>
    exact Conduct.Meets.map _ (Conduct.meets_decoded leaving_lasting working₁.leaving (decodes value rfl))
  | none, unserved, _ =>
    refine Conduct.Meets.bind (Conduct.meets_work fun v₂ moved₂ exclusive₂ => ?_)
    have working₂ : Working k i v₂.past := working_carried.lasting v₁ v₂ moved₂ exclusive₂ working₁
    have unserved₂ : Unserved k i v₂.past := unserved_lasting v₁ v₂ moved₂ exclusive₂ (unserved rfl)
    have nobody (j : Nat) (won : HasWon j v₂.past) : False := by
      rcases exclusive₂.won j won with result | holding
      · exact unserved₂.unresolved working₂.holding result
      · exact working₂.fresh (exclusive₂.holder_unique holding working₂.holding ▸ won)
    refine ⟨onceRule_working working₂.early.notLate working₂.holding nobody, fun answer v₃ did fair exclusive₃ => ?_⟩
    have early₃ : CameEarly k i v₃.past := early_suffix did.suffix working₂.early
    cases answer with
    | error why =>
      have leaving₃ : Leaving k i v₃.past := {
        early := early₃
        stored := fun won => absurd (hasWon_of_own did nofun won) working₂.fresh }
      exact leaving_lasting.henceforth leaving₃
    | ok result =>
      have holding₃ : Holding k i v₃.past := holding_own exclusive₃.fenced did (fun _ _ => rfl) working₂.holding
      obtain ⟨value, encoded, readable⟩ := fair.1
      intro v₄ moved₄ _
      refine Conduct.Meets.bind (Conduct.meets_ofResult fun v₅ moved₅ _ => ?_)
      rw [encoded]
      have holding₅ : Holding k i v₅.past := moved₅.holding (moved₄.holding holding₃)
      have early₅ : CameEarly k i v₅.past :=
        early_suffix moved₅.onward.suffix (early_suffix moved₄.onward.suffix early₃)
      have written₅ : writes k v₅.past ≠ [] := Ledger.written_mono moved₅.onward.more
        (Ledger.written_mono moved₄.onward.more (Ledger.written_mono did.more unserved₂.written))
      refine Conduct.Meets.bind (Conduct.Meets.weaken (once_resolve g holding₅ early₅ written₅ readable) ?_
        fun _ _ _ => False.elim)
      rintro v₆ resolution _ ⟨early₆, result₆, decodes⟩
      have leaving₆ : Leaving k i v₆.past := ⟨early₆, fun _ => result₆⟩
      match resolution, decodes with
      | .stored, _ => exact Conduct.meets_pure (leaving_lasting.henceforth leaving₆)
      | .alreadyResolved other, decodes =>
        exact Conduct.Meets.map _ (Conduct.meets_decoded leaving_lasting leaving₆ (decodes other rfl))

/-- Giving the lock back, whether the work won or lost. What was asked of a caller that came early holds afterwards, for it
stays early. -/
theorem once_giveBack {token : String} {next : Scene α (Except Failure τ) → Prop} (leaving : Leaving k i v.past)
    (claimed : Claimed k i token v) (holds : ∀ v, CameEarly k i v.past → next v) :
    (onceOnly visits k life).Asks i v (Lease.giveBack ⟨k, token⟩)
      fun _ v => (onceOnly visits k life).Henceforth i v next := by
  intro v₁ moved₁ exclusive₁
  have leaving₁ : Leaving k i v₁.past := leaving_lasting v v₁ moved₁ exclusive₁ leaving
  have claimed₁ : Claimed k i token v₁ := Fenced.claimed_onward moved₁.onward claimed
  refine ⟨onceRule_giveBack leaving₁ claimed₁, fun _ v₂ did _ _ v₃ moved₃ _ => holds v₃ ?_⟩
  exact early_suffix moved₃.onward.suffix (early_suffix did.suffix leaving₁.early)

/-- What a visitor's answer tells: whoever came late has a result that is replayed. -/
def Replayed (k : String) (i : Nat) (outcome : τ × Bool) (past : List (Note (Except Failure τ))) : Prop :=
  CameLate k i past → outcome.2 = true

/-- What a visitor does once it is admitted: whoever finds a result at the first look replays it, and whoever does not came
early, whatever becomes of its try for the lock. -/
theorem once_once (g : Guard) (origin : KeyOrigin) (early : ¬ CameLate k i v.past) (fresh : ¬ HasWon i v.past) :
    (onceOnly (α := α) visits k g.registry.life).Meets i (fun v' outcome => Replayed k i outcome v'.past)
      (fun v' _ => ¬ CameLate k i v'.past) (g.once (visits i).codec k origin Attempt.work) v := by
  have fresh_carried : Carried (α := α) visits k g.registry.life i fun v => ¬ HasWon i v.past := {
    lasting := fun _ _ moved _ fresh won => fresh (hasWon_before moved.onward won)
    own := fun _ _ _ _ _ did _ fresh won => fresh (hasWon_of_own did nofun won) }
  unfold Guard.once
  refine Conduct.Meets.bind (Conduct.Meets.weaken (once_kept g origin fresh_carried fresh early) ?_
    fun _ _ _ told => told.2.2)
  rintro v₁ found _ ⟨fresh₁, unserved, decodes⟩
  match found, unserved, decodes with
  | some value, _, decodes =>
    have served : (onceOnly (α := α) visits k g.registry.life).Lasting i
        fun v => CameLate k i v.past → true = true := fun _ _ _ _ _ _ => rfl
    exact Conduct.Meets.map _ (Conduct.meets_decoded served (fun _ => rfl) (decodes value rfl))
  | none, unserved, _ =>
    have early₁ : CameEarly k i v₁.past := (unserved rfl).early
    refine Conduct.Meets.bind (Conduct.meets_acquire fun v₂ moved₂ exclusive₂ => ?_)
    have early₂ : CameEarly k i v₂.past := early_suffix moved₂.onward.suffix early₁
    refine ⟨onceRule_quiet (.inl rfl) early₂.notLate, fun token v₃ did₃ _ _ v₄ moved₄ exclusive₄ => ?_⟩
    have early₄ : CameEarly k i v₄.past := early_suffix moved₄.onward.suffix (early_suffix did₃.suffix early₂)
    have token₄ : Fresh k i token v₄ :=
      Fenced.fresh_onward moved₄.onward (exclusive₂.fenced.fresh_of_named did₃)
    refine ⟨onceRule_claim early₄.notLate token₄, fun reply v₅ did₅ fair _ => ?_⟩
    have early₅ : CameEarly k i v₅.past := early_suffix did₅.suffix early₄
    rcases reply with why | _ | _
    · exact fair.1.elim
    · exact fun v₆ moved₆ _ => Conduct.meets_throw fun v₇ moved₇ _ =>
        (early_suffix moved₇.onward.suffix (early_suffix moved₆.onward.suffix early₅)).2
    · have fresh₅ : ¬ HasWon i v₅.past := by
        intro won
        have won₃ := hasWon_before moved₄.onward (hasWon_of_own did₅ nofun won)
        exact fresh₁ (hasWon_before moved₂.onward (hasWon_of_own did₃ nofun won₃))
      have working₅ : Working k i v₅.past := {
        holding := holding_of_granted exclusive₄.fenced token₄ did₅
        early := early₅
        fresh := fresh₅ }
      have claimed₅ : Claimed k i token v₅ := Fenced.claimed_of_granted did₅
      intro v₆ moved₆ exclusive₆
      have locked : (onceOnly visits k g.registry.life).Meets i (fun v _ => Leaving k i v.past)
          (fun v _ => Leaving k i v.past) (g.locked (visits i).codec k origin Attempt.work) v₆ :=
        once_locked g origin (working_carried.lasting v₅ v₆ moved₆ exclusive₆ working₅)
      refine Conduct.meets_leased (Conduct.Meets.weaken (locked.remember Fenced.claimed_suffix
        (Fenced.claimed_onward moved₆.onward claimed₅)) ?_ ?_)
      · exact fun _ _ _ told => once_giveBack told.1 told.2 fun v early late => absurd late early.notLate
      · exact fun _ _ _ told => once_giveBack told.1 told.2 fun v early => early.notLate

/-- Who has not looked has not come late, since being late is told by a look. -/
theorem notLate_of_unlooked {past : List (Note (Except Failure τ))} (unlooked : ¬ HasLooked k i past) :
    ¬ CameLate k i past :=
  fun late => unlooked (hasLooked_of_late late)

/-- A visitor who starts anew follows the rule, and returns a replayed result if it came late. Before its key is looked
at it is early by default; bucket and check are elsewhere. -/
theorem once_visit (g : Guard) (unlooked : ¬ HasLooked k i v.past) (unwon : ¬ HasWon i v.past) :
    (onceOnly (α := α) visits k g.registry.life).Safe i
      (Conduct.either (fun v r => CameLate k i v.past → r.replayed = true) fun v _ => ¬ CameLate k i v.past)
      ((visits i).program g k) v := by
  have lasting : (onceOnly (α := α) visits k g.registry.life).Lasting i
      fun v => ¬ HasLooked k i v.past ∧ ¬ HasWon i v.past :=
    fun _ _ moved _ new => ⟨fun looked => new.1 (hasLooked_before moved.onward looked),
      fun won => new.2 (hasWon_before moved.onward won)⟩
  refine Conduct.meets_visit g k (visits i) lasting ⟨unlooked, unwon⟩ ?_ ?_ ?_
    (fun _ _ new => notLate_of_unlooked new.1)
    (fun v origin _ _ new _ => once_once g origin (notLate_of_unlooked new.1) new.2)
  · intro v c new _ touched
    exact onceRule_elsewhere (notLate_of_unlooked new.1) (Visit.bucket_elsewhere touched k)
  · exact fun v new _ => onceRule_quiet (.inr rfl) (notLate_of_unlooked new.1)
  · intro v v' c reply new touched did
    exact ⟨unlooked_own did (unlooked_of_elsewhere (Visit.bucket_elsewhere touched k).1 reply v.now) new.1,
      fun won => new.2 (hasWon_of_own did nofun won)⟩

/-- Looking the key up. One look is all that a reader does at the record, and the rule asks only that it comes before any
other look of the reader's. -/
theorem once_lookup (g : Guard) (unlooked : ¬ HasLooked k i v.past) :
    (onceOnly (α := α) visits k g.registry.life).Meets i (fun _ _ => True) (fun _ _ => True)
      (g.registry.lookup k) v := by
  have onward {v₁ v₂ : Scene α (Except Failure τ)} (moved : Sheltered k i v₁ v₂)
      (unlooked₁ : ¬ HasLooked k i v₁.past) : ¬ HasLooked k i v₂.past :=
    fun looked => unlooked₁ (hasLooked_before moved.onward looked)
  unfold Registry.lookup
  refine Conduct.Meets.bind (Conduct.meets_checkKey (fun v₁ moved₁ _ => ?_) fun _ _ _ _ => trivial)
  refine Conduct.Meets.bind (Conduct.meets_find fun v₂ moved₂ _ => ?_)
  refine ⟨onceRule_get (notLate_of_unlooked (onward moved₂ (onward moved₁ unlooked))), fun reply v₃ _ _ _ => ?_⟩
  intro v₄ _ _
  cases Except.bind reply Registry.readRecord with
  | ok found =>
    cases found with
    | some record => exact Conduct.meets_pure fun _ _ _ => trivial
    | none => exact Conduct.meets_throw fun _ _ _ => trivial
  | error why => trivial

/-- Having a key made, whichever it becomes. If it becomes this one, the call that issues it is one that the rule allows,
and otherwise it is at another key. -/
theorem once_generate (g : Guard) (unlooked : ¬ HasLooked k i v.past) :
    (onceOnly (α := α) visits k g.registry.life).Meets i (fun _ _ => True) (fun _ _ => True)
      g.registry.generate v := by
  have onward {v₁ v₂ : Scene α (Except Failure τ)} (moved : Sheltered k i v₁ v₂)
      (unlooked₁ : ¬ HasLooked k i v₁.past) : ¬ HasLooked k i v₂.past :=
    fun looked => unlooked₁ (hasLooked_before moved.onward looked)
  unfold Registry.generate
  refine Conduct.Meets.bind (Conduct.meets_freshName fun v₁ moved₁ _ => ?_)
  have unlooked₁ : ¬ HasLooked k i v₁.past := onward moved₁ unlooked
  refine ⟨onceRule_quiet (.inl rfl) (notLate_of_unlooked unlooked₁), fun name v₂ did₂ _ _ v₃ moved₃ _ => ?_⟩
  have unlooked₃ : ¬ HasLooked k i v₃.past := onward moved₃ (unlooked_own did₂ rfl unlooked₁)
  refine Conduct.Meets.bind (Conduct.meets_ask fun v₄ moved₄ _ => ⟨?_, fun reply v₅ _ _ _ v₆ _ _ => ?_⟩)
  · have early₄ : ¬ CameLate k i v₄.past := notLate_of_unlooked (onward moved₄ unlooked₃)
    by_cases same : name = k
    · subst same
      exact onceRule_issue early₄
    · refine onceRule_elsewhere early₄ ⟨fun here => same (recordKey_injective (Option.some.inj here)), fun here => ?_⟩
      exact recordKey_ne_lockKey name k (Option.some.inj here)
  · rcases reply with why | _ | _
    · trivial
    · exact Conduct.meets_throw fun _ _ _ => trivial
    · exact Conduct.meets_pure fun _ _ _ => trivial

/-- How a caller ends: a visitor that came late returns a result that is replayed, and nothing is asked of the others. -/
def Role.EndsServed (k : String) (i : Nat) (past : List (Note (Except Failure τ))) (role : Role)
    (answer : Except Failure (Option (Guarded τ))) : Prop :=
  role = .visitor → CameLate k i past → ∃ r, answer = .ok (some r) ∧ r.replayed = true

/-- Every role but that of an evictor follows the rule. A maker writes the pending text only, a reader nothing at all,
and a visitor is `once_visit`. -/
theorem once_role (g : Guard) (role : Role) (keeps : role ≠ .evictor) (unlooked : ¬ HasLooked k i v.past)
    (unwon : ¬ HasWon i v.past) :
    (onceOnly (α := α) visits k g.registry.life).Safe i (fun v answer => role.EndsServed k i v.past answer)
      (role.program g k (visits i)) v := by
  refine Conduct.safe_role g k (visits i) role (fun _ => ?_) (fun is => ?_) (fun is => ?_) fun is => absurd is keeps
  · refine Conduct.Safe.weaken (once_visit g unlooked unwon) fun v₁ outcome _ told _ late => ?_
    cases outcome with
    | ok r => exact ⟨r, rfl, told late⟩
    | error why => exact absurd late told
  · subst is
    exact Conduct.Meets.weaken (once_generate g unlooked) nofun nofun
  · subst is
    exact Conduct.Meets.weaken (once_lookup g unlooked) nofun nofun

/-- Whatever the order of steps, as long as nothing disturbs the callers and nobody removes the record: at most one
operation runs at a time; once an operation has had success none is running and none has run since; and a visitor whose
first look came when the result was stored has returned a result that is replayed.

The visitors' routes may take keys of their clients or such as the server makes. The key may be issued, made or even
resolved before they come, or made by one of the callers while the visitors are under way; the life of its record
counts from its creation. -/
theorem success_happens_once (g : Guard) (visits : Nat → Visit τ) (roles : Nat → Role)
    (keeps : ∀ i, roles i ≠ .evictor) {w w' : Crowd α (Except Failure τ) (Except Failure (Option (Guarded τ)))}
    (callers : ∀ i, w.callers i = (roles i).program g k (visits i)) (distinct : w.store.entries.Distinct)
    (opening : Opening visits k g.registry.life (w.scene k))
    (course : Crowd.Course k
      (fun move _ v' => move.Undisturbed visits k ∧ InTime k v' ∧ WithinLife k g.registry.life v') w w') :
    (∀ i j held held' next next', w'.callers i = .work held next → w'.callers j = .work held' next' → i = j) ∧
      ((∃ note ∈ w'.past, note.isWin) → ∀ i held next, w'.callers i ≠ .work held next) ∧
      (∀ later win earlier, w'.past = later ++ win :: earlier → win.isWin → ∀ note ∈ later, ¬ note.isWork) ∧
      ∀ i, roles i = .visitor → CameLate k i w'.past →
        ∃ r, w'.callers i = .done (.ok (some r)) ∧ r.replayed = true := by
  have safe (i : Nat) : (onceOnly visits k g.registry.life).Safe i
      (fun v answer => (roles i).EndsServed k i v.past answer) (w.callers i) (w.scene k) := by
    rw [callers]
    exact once_role g (roles i) (keeps i) (opening.unlooked i) (opening.unwon i)
  obtain ⟨-, exclusive, safe'⟩ :=
    (onceOnly visits k g.registry.life).course_safe course distinct opening.exclusive safe
  have running {i : Nat} {held : Option Lease}
      {next : Except Failure τ → Program (Except Failure τ) (Except Failure (Option (Guarded τ)))}
      (works : w'.callers i = .work held next) : Holding k i w'.past ∧ ∀ j, ¬ HasWon j w'.past := by
    have mine := safe' i
    rw [works] at mine
    exact (Conduct.Henceforth.here mine exclusive).1.working rfl
  refine ⟨?_, ?_, ?_, ?_⟩
  · intro i j held held' next next' works works'
    exact Exclusive.holder_unique exclusive (running works).1 (running works').1
  · rintro ⟨note, noted, win⟩ i held next works
    exact (running works).2 note.caller ⟨note, noted, rfl, win⟩
  · intro later win earlier is wins note noted work
    have order : (later ++ win :: earlier).Pairwise fun later earlier => later.isWork → ¬ earlier.isWin :=
      is ▸ exclusive.order
    exact (List.pairwise_append.mp order).2.2 note noted win List.mem_cons_self work wins
  · intro i visitor late
    rcases (safe' i).next exclusive with ⟨answer, is, told⟩ | ⟨doing, rule⟩
    · obtain ⟨r, answers, replayed⟩ := told visitor late
      exact ⟨r, answers ▸ is, replayed⟩
    · exact absurd late rule.early

end

/-- What the following runs check of each step. -/
def checksOnce (move : Move (Except Failure String)) (_ v' : Scene Binary64 (Except Failure String)) : Bool :=
  isCalm "order-1" "paid" move &&
    decide (InTime "order-1" v' ∧ WithinLife "order-1" briefGuard.registry.life v')

/-- A key that was issued a second ago, and visitors who come with it to a route whose keys the server makes. -/
def issuedAhead : Crowd Binary64 (Except Failure String) (Except Failure (Option (Guarded String))) :=
  let crowd := Crowd.atEmptyStore fun _ => Role.visitor.program briefGuard "order-1" madeVisit
  let issue : Call := .setIfAbsent (recordKey "order-1") Record.placeholder briefGuard.registry.life
  { crowd with
    now := ⟨1000000000⟩
    store := (crowd.store.perform crowd.now issue).1
    past := [⟨0, crowd.now, .called issue (.ok true)⟩] }

/-- The first visitor fails under the lock while another has seen the key pending. A third succeeds, a fourth comes when
the result is stored, and then the second tries for the lock. -/
def oneAfterAnother : List (Cue (Except Failure String)) :=
  [.call 0, .call 0, .name 0 "a", .call 0, .call 0, .call 1, .call 1, .name 1 "b", .work 0 (.error (.internal "down")), .call 0,
    .call 2, .call 2, .name 2 "c", .call 2, .call 2, .wait 1000000000, .work 2 (.ok "paid"), .call 2,
    .call 3, .call 3, .call 2, .call 1, .call 1, .call 1]

/-- One caller has a key made, one looks it up, and all others present it. -/
def makerAndReader : Nat → Role
  | 0 => .maker
  | 1 => .reader
  | _ => .visitor

/-- These callers at an empty store, on routes that take keys of either kind. -/
def makerAhead : Crowd Binary64 (Except Failure String) (Except Failure (Option (Guarded String))) :=
  .atEmptyStore fun i =>
    (makerAndReader i).program briefGuard "order-1" (if i = 2 then textVisit else madeVisit)

/-- The key is made and looked up, one visitor succeeds with it and the next replays the result. -/
def madeAndPresented : List (Cue (Except Failure String)) :=
  [.name 0 "order-1", .call 0, .call 1, .call 2, .call 2, .name 2 "a", .call 2, .call 2, .work 2 (.ok "paid"), .call 2,
    .call 3, .call 3]

/-- In both runs, with a key that was issued before anybody came and with one that a caller makes, the operation
succeeds once and the last visitor returns its result as a replay. -/
theorem success_happens_once_oneAfterAnother :
    (∃ w', issuedAhead.play "order-1" checksOnce oneAfterAnother = some w' ∧ HasWon 2 w'.past ∧
        (∀ i held next, w'.callers i ≠ .work held next) ∧ CameLate "order-1" 3 w'.past ∧
        ∃ r, w'.callers 3 = .done (.ok (some r)) ∧ r.replayed = true) ∧
      ∃ w', makerAhead.play "order-1" checksOnce madeAndPresented = some w' ∧ HasWon 2 w'.past ∧
        (∀ i held next, w'.callers i ≠ .work held next) ∧ CameLate "order-1" 3 w'.past ∧
        ∃ r, w'.callers 3 = .done (.ok (some r)) ∧ r.replayed = true := by
  have sound {visits : Nat → Visit String} (texts : ∀ i, (visits i).codec = .text)
      (move : Move (Except Failure String)) (v v' : Scene Binary64 (Except Failure String))
      (passed : checksOnce move v v' = true) : move.Undisturbed visits "order-1" ∧ InTime "order-1" v' ∧
        WithinLife "order-1" briefGuard.registry.life v' := by
    obtain ⟨calm, fair⟩ := Bool.and_eq_true _ _ ▸ passed
    exact ⟨undisturbed_of_isCalm (serializes_paid texts) calm, of_decide_eq_true fair⟩
  constructor
  · have played : (issuedAhead.play "order-1" checksOnce oneAfterAnother).map
        (fun w => decide (HasWon 2 w.past ∧ CameLate "order-1" 3 w.past)) = some true := by decide +kernel
    obtain ⟨w', is, facts⟩ := Option.map_eq_some_iff.mp played
    obtain ⟨won, late⟩ := of_decide_eq_true facts
    have opening : Opening (fun _ => madeVisit) "order-1" briefGuard.registry.life (issuedAhead.scene "order-1") :=
      .issued rfl (by decide) (by decide) rfl rfl
    obtain ⟨-, idle, -, replayed⟩ := success_happens_once briefGuard (fun _ => madeVisit) (fun _ => .visitor)
      (fun _ => by decide) (fun _ => rfl) (Crowd.distinct_of_performed Table.distinct_empty _ _) opening
      (Crowd.course_of_play (sound fun _ => rfl) is)
    obtain ⟨note, noted, -, win⟩ := id won
    exact ⟨w', is, won, idle ⟨note, noted, win⟩, late, replayed 3 rfl late⟩
  · have played : (makerAhead.play "order-1" checksOnce madeAndPresented).map
        (fun w => decide (HasWon 2 w.past ∧ CameLate "order-1" 3 w.past)) = some true := by decide +kernel
    obtain ⟨w', is, facts⟩ := Option.map_eq_some_iff.mp played
    obtain ⟨won, late⟩ := of_decide_eq_true facts
    have texts (i : Nat) : (if i = 2 then textVisit else madeVisit).codec = .text := by split <;> rfl
    have noEvictor (i : Nat) : makerAndReader i ≠ .evictor := by
      unfold makerAndReader
      split <;> decide
    obtain ⟨-, idle, -, replayed⟩ := success_happens_once briefGuard
      (fun i => if i = 2 then textVisit else madeVisit) makerAndReader noEvictor (fun _ => rfl) Table.distinct_empty
      (.untouched rfl rfl rfl) (Crowd.course_of_play (sound texts) is)
    obtain ⟨note, noted, -, win⟩ := id won
    exact ⟨w', is, won, idle ⟨note, noted, win⟩, late, replayed 3 rfl late⟩

end Turnstile
