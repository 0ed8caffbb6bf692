import Turnstile.Proofs.Guard.Issued

/-!
A key that the server makes stands for one success, forever.

Visitors, readers and evictors of a key that was made up once take their steps in any order, over any length of
time. Whoever runs the operation has seen the record pending under the lock. When the operation has succeeded, its
visitor finds the record pending or gone, stores the result and returns it as its own. From the moment on at which
the record has been gone, nobody who has not looked yet runs the operation any more.
-/

namespace Turnstile

variable {α ω τ : Type} {k : String}

section

variable {visits : Nat → Visit τ} {i : Nat} {v : Scene α (Except Failure τ)}

/-! What callers may do. -/

/-- Calls at other keys are allowed, for no rule of the record or of the lock is about them. -/
theorem issuedRule_elsewhere {c : Call}
    (elsewhere : c.key? ≠ some (recordKey k) ∧ c.key? ≠ some (lockKey k)) :
    IssuedRule visits k i v (.calling c) where
  lock here := absurd here elsewhere.2
  record here := absurd here elsewhere.1
  working := nofun
  leaving token is := by
    cases is
    exact absurd rfl elsewhere.2
  breaking := nofun

/-- Calls at the record are allowed by its rule. They touch no lock, so nothing is asked of who may leave it. -/
theorem issuedRule_record {c : Call} (touched : c.key? = some (recordKey k))
    (rule : IssuedRecordRule visits k i v.past (.calling c)) : IssuedRule visits k i v (.calling c) where
  lock := lockRule_elsewhere touched
  record := rule
  working := nofun
  leaving token is := by
    cases is
    exact absurd (Option.some.inj touched).symm (recordKey_ne_lockKey k k)
  breaking := nofun

/-- A look at the record is allowed to everybody, as it writes nothing. -/
theorem issuedRule_get (visits : Nat → Visit τ) : IssuedRule visits k i v (.calling (.get (recordKey k))) :=
  issuedRule_record rfl fun _ => .inl rfl

/-- Making up a name is allowed to everybody, for no call is made. -/
theorem issuedRule_naming : IssuedRule visits k i v .naming where
  lock := trivial
  record := trivial
  working := nofun
  leaving := nofun
  breaking := nofun

/-- The operation may be run by whoever holds the lock and has seen the record pending, as long as nobody has succeeded.
Neither lock nor record is touched by it. -/
theorem issuedRule_working (holding : Holding k i v.past) (nobody : ∀ j, ¬ HasWon j v.past)
    (seen : HasSeenPending k i v.past) : IssuedRule visits k i v .working where
  lock := trivial
  record := trivial
  working _ := ⟨holding, nobody, seen⟩
  leaving := nofun
  breaking := nofun

/-- Breaking down is allowed to whoever has not succeeded, since it leaves no result unstored. -/
theorem issuedRule_breaking (unwon : ¬ HasWon i v.past) : IssuedRule visits k i v .breaking where
  lock := trivial
  record := trivial
  working := nofun
  leaving := nofun
  breaking _ := unwon

/-- A try for the lock is allowed with a name of the caller's own, by which its claim is told from all others. -/
theorem issuedRule_claim {token : String} {life : Span} (fresh : Fresh k i token v) :
    IssuedRule visits k i v (.calling (.setIfAbsent (lockKey k) token life)) where
  lock _ := .inl ⟨token, life, rfl, fresh⟩
  record touched := absurd touched (lock_elsewhere k k)
  working := nofun
  leaving := nofun
  breaking := nofun

/-- Giving back what was claimed is allowed, after a success only when the result is stored. Otherwise somebody else
could run the operation again under the lock. -/
theorem issuedRule_giveBack {token : String} (stored : HasWon i v.past → HasResult k v.past)
    (claimed : Claimed k i token v) : IssuedRule visits k i v (.calling (Lease.giveBack ⟨k, token⟩)) where
  lock _ := .inr ⟨token, rfl, claimed⟩
  record touched := absurd touched (lock_elsewhere k k)
  working := nofun
  leaving _ _ := stored
  breaking := nofun

/-! What a visit tells. -/

/-- A visitor that found the record pending. While it holds the lock the record has no result. -/
structure Sought (k : String) (i : Nat) (past : List (Note (Except Failure τ))) : Prop where
  seen : HasSeenPending k i past
  written : writes k past ≠ []
  unresolved : Holding k i past → ¬ HasResult k past

/-- What a result tells: after a success of one's own it is that success, and otherwise it is replayed; and who has
not seen the record pending returns what is replayed. -/
structure Served (k : String) (i : Nat) (replayed : Bool) (past : List (Note (Except Failure τ))) : Prop where
  own : HasWon i past → replayed = false
  other : replayed = true ∨ HasSeenPending k i past

/-- What a failure tells: there was no success, and who has looked and not seen the record pending found the key
unknown. -/
structure Turned (k : String) (i : Nat) (why : Failure) (past : List (Note (Except Failure τ))) : Prop where
  unwon : ¬ HasWon i past
  other : ¬ HasLooked k i past ∨ why = .unknownKey k ∨ HasSeenPending k i past

/-- How a caller ends. -/
def Role.Ends (k : String) (i : Nat) (past : List (Note (Except Failure τ))) (role : Role) :
    Except Failure (Option (Guarded τ)) → Prop
  | .ok (some r) => Served k i r.replayed past
  | .ok none => role ≠ .visitor ∧ ¬ HasWon i past
  | .error why => Turned k i why past

namespace Role.Ends

variable {past : List (Note (Except Failure τ))} {role : Role} {answer : Except Failure (Option (Guarded τ))}

/-- Who has succeeded returns the result as its own. It can not have been turned away, as nobody who was has succeeded,
and what it returns is not replayed. -/
theorem own (ends : role.Ends k i past answer) (won : HasWon i past) :
    ∃ r, answer = .ok (some r) ∧ r.replayed = false := by
  rcases answer with why | _ | r
  · exact absurd won (Turned.unwon ends)
  · exact absurd won ends.2
  · exact ⟨r, rfl, Served.own ends won⟩

/-- A visitor that has looked and not seen the record pending finds the key unknown or returns what is replayed, for
these are the ends that are left to it. -/
theorem other (ends : Role.visitor.Ends k i past answer) (looked : HasLooked k i past)
    (unseen : ¬ HasSeenPending k i past) :
    answer = .error (.unknownKey k) ∨ ∃ r, answer = .ok (some r) ∧ r.replayed = true := by
  rcases answer with why | _ | r
  · rcases Turned.other ends with not | unknown | seen
    · exact absurd looked not
    · exact .inl (congrArg _ unknown)
    · exact absurd seen unseen
  · exact absurd rfl ends.1
  · exact .inr ⟨r, rfl, (Served.other ends).resolve_right unseen⟩

end Role.Ends

/-- Who has found the record pending goes on so while others move, and as nobody else stores a result while it holds the
lock, it still knows of none. -/
theorem sought_onward {v' : Scene α (Except Failure τ)} (moved : Unhindered k i v v') (sought : Sought k i v.past) :
    Sought k i v'.past where
  seen := hasSeenPending_mono moved.onward.more sought.seen
  written := Ledger.written_mono moved.onward.more sought.written
  unresolved holding result :=
    have before := holding_before moved.onward holding
    sought.unresolved before (moved.result before result)

/-- What a result tells is about its caller's own notes, so it stays true while others move. -/
theorem served_onward {v' : Scene α (Except Failure τ)} {replayed : Bool} (moved : v.Onward i v')
    (served : Served k i replayed v.past) : Served k i replayed v'.past where
  own won := served.own (hasWon_before moved won)
  other := served.other.imp_right (hasSeenPending_mono moved.more)

/-- What a failure tells is about its caller's own notes, so it stays true while others move. -/
theorem turned_onward {v' : Scene α (Except Failure τ)} {why : Failure} (moved : v.Onward i v')
    (turned : Turned k i why v.past) : Turned k i why v'.past where
  unwon won := turned.unwon (hasWon_before moved won)
  other := turned.other.imp (fun not looked => not (hasLooked_before moved looked))
    fun told => told.imp_right (hasSeenPending_mono moved.more)

/-- Who fails before it has looked tells so with any failure. Refusing a key that breaks the rules is of this kind, for
the rules are checked before any call. -/
theorem turned_of_new {past : List (Note (Except Failure τ))} {why : Failure} (unlooked : ¬ HasLooked k i past)
    (unwon : ¬ HasWon i past) : Turned k i why past where
  unwon := unwon
  other := .inl unlooked

/-! When the record is pending no more. -/

/-- From some notes on, the record is not pending and nobody sees it pending any more. -/
def GoneSince (k : String) (base : List (Note ω)) (v : Scene α ω) : Prop :=
  Passed k v ∧ ∃ news, v.past = news ++ base ∧ ∀ note ∈ news, ¬ note.SeesPending k

/-- A record that has been created and is gone is not pending from now on, since nobody may create it again. -/
theorem GoneSince.start {v : Scene α ω} (written : writes k v.past ≠ []) (gone : v.record = none) :
    GoneSince k v.past v := by
  refine ⟨⟨written, ?_⟩, [], rfl, fun _ new => by cases new⟩
  rw [gone]
  rintro ⟨⟩

/-- Who had not looked by then does not see the record pending: its looks are all noted later, and none of the later
ones sees that. -/
theorem GoneSince.unseen {v : Scene α ω} {base : List (Note ω)} {i : Nat} (gone : GoneSince k base v)
    (unlooked : ¬ HasLooked k i base) : ¬ HasSeenPending k i v.past := by
  obtain ⟨-, news, is, unseen⟩ := gone
  rintro ⟨note, noted, mine, sees⟩
  rw [is] at noted
  rcases List.mem_append.mp noted with new | old
  · exact unseen note new sees
  · exact unlooked ⟨note, old, by simp [Note.isLook, show note.deed = _ from sees, mine]⟩

variable [TokenNumber α]

/-- What is carried through a look at the record. -/
structure Borne (visits : Nat → Visit τ) (k : String) (i : Nat) (holds : Scene α (Except Failure τ) → Prop) :
    Prop where
  lasting : (issuedOnce visits k).Lasting i holds
  look : ∀ v v' reply, Scene.Own k i (.called (.get (recordKey k)) reply) v v' → Fenced k v' → holds v → holds v'

/-- What a look at the record finds: nothing, the pending text, or a result that can be decoded. -/
structure Find (visits : Nat → Visit τ) (k : String) (i : Nat) (found : Option Record)
    (past : List (Note (Except Failure τ))) : Prop where
  decodable : ∀ value, found = some (.resolved value) → ∃ result, (visits i).codec.decode value = .ok result
  pending : found = some .pending → Sought k i past

/-- A look at the record reads what is there, and so nothing where there is no live entry. -/
theorem reply_of_look {reply : Option String} {v v' : Scene α (Except Failure τ)}
    (did : Scene.Own k i (.called (.get (recordKey k)) (.ok reply)) v v') : reply = v.record.bind Entry.text? := by
  obtain ⟨e, decided, _⟩ := Deed.changes_at rfl did.record
  exact (Call.onEntry_get decided).1

/-- A look at the record. It finds nothing, or the record pending, which is noted then, or a result, which every visitor
can read. -/
theorem issued_find (g : Guard) {holds : Scene α (Except Failure τ) → Prop} (borne : Borne visits k i holds)
    (now : holds v) :
    (issuedOnce visits k).Meets i (fun v' found => holds v' ∧ Find visits k i found v'.past)
      (fun _ _ => False) (g.registry.find? k) v := by
  refine Conduct.meets_find fun v₁ moved₁ issued₁ => ⟨issuedRule_get visits, fun reply v₂ did fair issued₂ => ?_⟩
  cases reply with
  | error why => exact fair.1.elim
  | ok text =>
    have read := reply_of_look did
    have now₂ : holds v₂ := borne.look v₁ v₂ _ did issued₂.fenced (borne.lasting v v₁ moved₁ issued₁ now)
    intro v₃ moved₃ issued₃
    have now₃ : holds v₃ := borne.lasting v₂ v₃ moved₃ issued₃ now₂
    rcases issued₁.shown with gone | ⟨pending, written, none⟩ | ⟨shown, there, _, _, value, reads, decodes⟩
    · rw [gone] at read
      rw [read]
      exact ⟨now₃, {
        decodable := nofun
        pending := nofun }⟩
    · rw [pending] at read
      subst read
      have unresolved₂ : ¬ HasResult k v₂.past := by
        intro result
        rw [did.past] at result
        exact none (hasResult_of_cons (fun _ is => by cases is) result)
      have sought₂ : Sought k i v₂.past := {
        seen := ⟨_, did.noted, rfl, rfl⟩
        written := Ledger.written_mono did.more written
        unresolved := fun _ => unresolved₂ }
      simp only [Except.bind, Registry.readRecord, Record.read_placeholder]
      exact ⟨now₃, {
        decodable := nofun
        pending := fun _ => sought_onward moved₃ sought₂ }⟩
    · rw [there] at read
      subst read
      simp only [Except.bind, Registry.readRecord, reads]
      refine ⟨now₃, {
        decodable := fun other is => ?_
        pending := nofun }⟩
      cases is
      exact decodes i

/-- A look at a key that the server makes. If there is no record the key is unknown and the call ends; a pending one
leads on, and a result is replayed. -/
theorem issued_kept (g : Guard) {holds : Scene α (Except Failure τ) → Prop} (borne : Borne visits k i holds)
    (now : holds v) :
    (issuedOnce visits k).Meets i
      (fun v' found => holds v' ∧ (found = none → Sought k i v'.past) ∧
        ∀ value, found = some value → ∃ result, (visits i).codec.decode value = .ok result)
      (fun v' why => holds v' ∧ why = .unknownKey k) (g.kept k .server) v := by
  unfold Guard.kept
  refine Conduct.Meets.bind (Conduct.Meets.weaken (issued_find g borne now) ?_ fun _ _ _ => False.elim)
  rintro v₁ found issued₁ ⟨now₁, find⟩
  match found, find with
  | some (.resolved value), find =>
    refine Conduct.meets_pure fun v₂ moved₂ issued₂ =>
      ⟨borne.lasting v₁ v₂ moved₂ issued₂ now₁, nofun, fun other is => ?_⟩
    cases is
    exact find.decodable value rfl
  | some .pending, find =>
    exact Conduct.meets_pure fun v₂ moved₂ issued₂ => ⟨borne.lasting v₁ v₂ moved₂ issued₂ now₁,
      fun _ => sought_onward moved₂ (find.pending rfl), nofun⟩
  | none, _ =>
    exact Conduct.Meets.map _ (Conduct.meets_throw fun v₂ moved₂ issued₂ =>
      ⟨borne.lasting v₁ v₂ moved₂ issued₂ now₁, rfl⟩)

/-- Resolving the key after a success: the result is stored. The record is pending, and the swap is made, or it is gone,
and then the result is written back; nobody else can have stored one. -/
theorem issued_resolve (g : Guard) {value : Json.Value} (storing : Storing k i v.past)
    (readable : Readable visits (Record.resolved value).text) :
    (issuedOnce (α := α) visits k).Meets i (fun v' resolution => resolution = .stored ∧ HasResult k v'.past)
      (fun _ _ => False) (g.registry.resolve k value) v := by
  have result := Record.text_ne_placeholder value
  have stored {v v' : Scene α (Except Failure τ)} {c : Call} {reply : Except Failure c.Reply}
      (did : Scene.Own k i (.called c reply) v v') (wrote : (⟨i, v.now, .called c reply⟩ :
        Note (Except Failure τ)).write? k = some ⟨i, v.now, (Record.resolved value).text⟩) : HasResult k v'.past := by
    refine ⟨⟨i, v.now, (Record.resolved value).text⟩, ?_, result⟩
    rw [writes_own did, wrote]
    exact List.mem_cons_self
  have ends {v : Scene α (Except Failure τ)} (there : HasResult k v.past) :
      (issuedOnce visits k).Henceforth i v fun v => (issuedOnce (α := α) visits k).Meets i
        (fun v' resolution => resolution = .stored ∧ HasResult k v'.past) (fun _ _ => False)
        (pure Resolution.stored) v :=
    fun _ moved _ => Conduct.meets_pure fun _ moved' _ =>
      ⟨rfl, hasResult_mono moved'.onward.more (hasResult_mono moved.onward.more there)⟩
  unfold Registry.resolve
  refine Conduct.Meets.bind (Conduct.meets_ask fun v₁ moved₁ issued₁ => ?_)
  have storing₁ : Storing k i v₁.past := storing_onward moved₁ storing
  have rule₁ : IssuedRule visits k i v₁
      (.calling (.compareAndSet (recordKey k) Record.placeholder (Record.resolved value).text g.registry.life)) :=
    issuedRule_record rfl fun _ => .inr (.inr (.inr ⟨_, _, .inl rfl, result, readable, storing₁⟩))
  refine ⟨rule₁, fun reply v₂ did₂ fair₂ issued₂ => ?_⟩
  rcases reply with why | _ | _
  · exact fair₂.1.elim
  · -- The record has no result and does not show the pending text, so it is gone, and stays so.
    have passed₂ : Passed k v₂ := by
      obtain ⟨e, decided, _⟩ := Deed.changes_at rfl did₂.record
      exact passed_own rule₁.record did₂ ⟨storing₁.written, (Call.onEntry_replace_false decided).1⟩
    have storing₂ : Storing k i v₂.past := storing_own rfl issued₂.fenced rfl did₂ storing₁
    intro v₃ moved₃ _
    refine Conduct.Meets.bind (Conduct.meets_find fun v₄ moved₄ issued₄ => ?_)
    have passed₄ : Passed k v₄ := moved₄.passed (moved₃.passed passed₂)
    have storing₄ : Storing k i v₄.past := storing_onward moved₄ (storing_onward moved₃ storing₂)
    refine ⟨issuedRule_get visits, fun reply v₅ did₅ fair₅ issued₅ => ?_⟩
    cases reply with
    | error why => exact fair₅.1.elim
    | ok text =>
      have read := reply_of_look did₅
      rw [issued₄.gone storing₄ passed₄] at read
      subst read
      have passed₅ : Passed k v₅ := passed_own (issuedRule_get visits).record did₅ passed₄
      have storing₅ : Storing k i v₅.past := storing_own rfl issued₅.fenced rfl did₅ storing₄
      intro v₆ moved₆ _
      refine Conduct.Meets.bind (Conduct.meets_ask fun v₇ moved₇ issued₇ => ?_)
      have passed₇ : Passed k v₇ := moved₇.passed (moved₆.passed passed₅)
      have storing₇ : Storing k i v₇.past := storing_onward moved₇ (storing_onward moved₆ storing₅)
      refine ⟨issuedRule_record rfl fun _ => .inr (.inr (.inr ⟨_, _, .inr rfl, result, readable, storing₇⟩)),
        fun reply v₈ did₈ fair₈ _ => ?_⟩
      rcases reply with why | _ | _
      · exact fair₈.1.elim
      · obtain ⟨e, decided, _⟩ := Deed.changes_at rfl did₈.record
        have there := (Call.onEntry_set_false decided).1
        rw [issued₇.gone storing₇ passed₇] at there
        cases there
      · exact ends (stored did₈ (by simp [Note.write?]))
  · exact ends (stored did₂ (by simp [Note.write?]))

/-- What a visitor does under the lock knows before the operation: it holds the lock and has not succeeded. -/
structure AtLock (k : String) (i : Nat) (past : List (Note (Except Failure τ))) : Prop where
  holding : Holding k i past
  unwon : ¬ HasWon i past

/-- Others' moves and looks at the record let nobody succeed, so a caller that has not goes on so. -/
theorem unwon_borne : Borne (α := α) visits k i fun v => ¬ HasWon i v.past where
  lasting _ _ moved _ unwon won := unwon (hasWon_before moved.onward won)
  look _ _ _ did _ unwon won := unwon (hasWon_of_own did nofun won)

/-- Others' moves and looks at the record leave the lock with its holder, and what the holder knows of successes stays
true. -/
theorem atLock_borne : Borne (α := α) visits k i fun v => AtLock k i v.past where
  lasting v v' moved issued atLock := {
    holding := moved.holding atLock.holding
    unwon := unwon_borne.lasting v v' moved issued atLock.unwon }
  look _ _ _ did fenced atLock := {
    holding := holding_own fenced did (fun _ _ => rfl) atLock.holding
    unwon := fun won => atLock.unwon (hasWon_of_own did nofun won) }

/-- What a visitor does under the lock. A result that is found is replayed, an unknown key ends it, and after a look
that sees the record pending the operation may run; if it succeeds, its result is stored. -/
theorem issued_locked (g : Guard) (atLock : AtLock k i v.past) :
    (issuedOnce (α := α) visits k).Meets i
      (fun v' outcome => (HasWon i v'.past → HasResult k v'.past) ∧ Served k i outcome.2 v'.past)
      (fun v' why => Turned k i why v'.past) (g.locked (visits i).codec k .server Attempt.work) v := by
  unfold Guard.locked
  refine Conduct.Meets.bind (Conduct.Meets.weaken (issued_kept g atLock_borne atLock) ?_ ?_)
  · rintro v₁ found _ ⟨atLock₁, sought, decodes⟩
    match found, sought, decodes with
    | some value, _, decodes =>
      have served : (issuedOnce (α := α) visits k).Lasting i fun v => ¬ HasWon i v.past := unwon_borne.lasting
      refine Conduct.Meets.map _ (Conduct.Meets.weaken
        (Conduct.meets_decoded served atLock₁.unwon (decodes value rfl)) ?_ fun _ _ _ => False.elim)
      exact fun v₂ _ _ unwon =>
        ⟨fun won => absurd won unwon, { own := fun won => absurd won unwon, other := .inl rfl }⟩
    | none, sought, _ =>
      have sought₁ : Sought k i v₁.past := sought rfl
      refine Conduct.Meets.bind (Conduct.meets_work fun v₂ moved₂ issued₂ => ?_)
      have atLock₂ : AtLock k i v₂.past := atLock_borne.lasting v₁ v₂ moved₂ issued₂ atLock₁
      have sought₂ : Sought k i v₂.past := sought_onward moved₂ sought₁
      have unresolved₂ : ¬ HasResult k v₂.past := sought₂.unresolved atLock₂.holding
      have nobody (j : Nat) (won : HasWon j v₂.past) : False := by
        rcases issued₂.won j won with result | holding
        · exact unresolved₂ result
        · have same : j = i := holder_unique issued₂.fenced issued₂.inTime holding atLock₂.holding
          exact atLock₂.unwon (same ▸ won)
      refine ⟨issuedRule_working atLock₂.holding nobody sought₂.seen, fun answer v₃ did₃ fair₃ issued₃ => ?_⟩
      have seen₃ : HasSeenPending k i v₃.past := hasSeenPending_mono did₃.more sought₂.seen
      cases answer with
      | error why =>
        have turned₃ : Turned k i why v₃.past := {
          unwon := fun won => atLock₂.unwon (hasWon_of_own did₃ nofun won)
          other := .inr (.inr seen₃) }
        exact fun v₄ moved₄ _ => turned_onward moved₄.onward turned₃
      | ok result =>
        have unresolved₃ : ¬ HasResult k v₃.past := by
          intro resolved
          rw [did₃.past] at resolved
          exact unresolved₂ (hasResult_of_cons (fun _ is => by cases is) resolved)
        have storing₃ : Storing k i v₃.past := {
          holding := holding_own issued₃.fenced did₃ (fun _ _ => rfl) atLock₂.holding
          won := ⟨_, did₃.noted, rfl, result, rfl⟩
          unresolved := unresolved₃
          written := Ledger.written_mono did₃.more sought₂.written }
        obtain ⟨value, encoded, readable⟩ := fair₃.1
        intro v₄ moved₄ _
        refine Conduct.Meets.bind (Conduct.meets_ofResult fun v₅ moved₅ _ => ?_)
        rw [encoded]
        have storing₅ : Storing k i v₅.past := storing_onward moved₅ (storing_onward moved₄ storing₃)
        have seen₅ : HasSeenPending k i v₅.past :=
          hasSeenPending_mono moved₅.onward.more (hasSeenPending_mono moved₄.onward.more seen₃)
        refine Conduct.Meets.bind (Conduct.Meets.weaken ((issued_resolve g storing₅ readable).remember
          (fun _ _ more => hasSeenPending_mono more.subset) seen₅) ?_ fun _ _ _ lost => lost.1.elim)
        rintro v₆ _ _ ⟨⟨rfl, stored₆⟩, seen₆⟩
        refine Conduct.meets_pure fun v₇ moved₇ _ => ⟨fun _ => hasResult_mono moved₇.onward.more stored₆, ?_⟩
        exact { own := fun _ => rfl, other := .inr (hasSeenPending_mono moved₇.onward.more seen₆) }
  · rintro v₁ why _ ⟨atLock₁, rfl⟩
    exact { unwon := atLock₁.unwon, other := .inr (.inl rfl) }

/-- Giving the lock back. What was told of the visit before stays true, as it is about looks and successes, and this is
neither. -/
theorem issued_giveBack {token : String} {holds : List (Note (Except Failure τ)) → Prop}
    (onward : ∀ v v' : Scene α (Except Failure τ), v.Onward i v' → holds v.past → holds v'.past)
    (gave : ∀ (v v' : Scene α (Except Failure τ)) reply,
      Scene.Own k i (.called (Lease.giveBack ⟨k, token⟩) reply) v v' → holds v.past → holds v'.past)
    (stored : HasWon i v.past → HasResult k v.past) (claimed : Claimed k i token v) (now : holds v.past) :
    (issuedOnce visits k).Asks i v (Lease.giveBack ⟨k, token⟩)
      fun _ v => (issuedOnce visits k).Henceforth i v fun v => holds v.past := by
  intro v₁ moved₁ _
  have stored₁ (won : HasWon i v₁.past) : HasResult k v₁.past :=
    hasResult_mono moved₁.onward.more (stored (hasWon_before moved₁.onward won))
  refine ⟨issuedRule_giveBack stored₁ (Fenced.claimed_onward moved₁.onward claimed), fun reply v₂ did₂ _ _ => ?_⟩
  exact fun v₃ moved₃ _ => onward v₂ v₃ moved₃.onward (gave v₁ v₂ reply did₂ (onward v v₁ moved₁.onward now))

/-- A call changes nothing of what a result tells, for it lets nobody succeed. -/
theorem served_called {c : Call} {reply : Except Failure c.Reply} {v v' : Scene α (Except Failure τ)}
    {replayed : Bool} (did : Scene.Own k i (.called c reply) v v') (served : Served k i replayed v.past) :
    Served k i replayed v'.past where
  own won := served.own (hasWon_of_own did nofun won)
  other := served.other.imp_right (hasSeenPending_mono did.more)

/-- A call that is no look at the record changes nothing of what a failure tells. -/
theorem turned_called {c : Call} {reply : Except Failure c.Reply} {v v' : Scene α (Except Failure τ)}
    {why : Failure} (did : Scene.Own k i (.called c reply) v v')
    (not : (⟨i, v.now, .called c reply⟩ : Note (Except Failure τ)).isLook k i = false)
    (turned : Turned k i why v.past) : Turned k i why v'.past where
  unwon won := turned.unwon (hasWon_of_own did nofun won)
  other := turned.other.imp (unlooked_own did not) fun told => told.imp_right (hasSeenPending_mono did.more)

/-- What a visitor does once it is admitted: a look, a try for the lock, and then what is done under it. Before the lock
is got the visitor has not succeeded, and afterwards it leaves with its result stored. -/
theorem issued_once (g : Guard) (unwon : ¬ HasWon i v.past) :
    (issuedOnce (α := α) visits k).Meets i (fun v' outcome => Served k i outcome.2 v'.past)
      (fun v' why => Turned k i why v'.past) (g.once (visits i).codec k .server Attempt.work) v := by
  unfold Guard.once
  refine Conduct.Meets.bind (Conduct.Meets.weaken (issued_kept g unwon_borne unwon) ?_ ?_)
  · rintro v₁ found _ ⟨unwon₁, sought, decodes⟩
    match found, sought, decodes with
    | some value, _, decodes =>
      refine Conduct.Meets.map _ (Conduct.Meets.weaken
        (Conduct.meets_decoded (unwon_borne (α := α) (k := k)).lasting unwon₁ (decodes value rfl)) ?_
        fun _ _ _ => False.elim)
      exact fun v₂ _ _ unwon₂ => { own := fun won => absurd won unwon₂, other := .inl rfl }
    | none, sought, _ =>
      have sought₁ : Sought k i v₁.past := sought rfl
      refine Conduct.Meets.bind (Conduct.meets_acquire fun v₂ moved₂ issued₂ => ?_)
      refine ⟨issuedRule_naming, fun token v₃ did₃ _ _ v₄ moved₄ issued₄ => ?_⟩
      have fresh₄ : Fresh k i token v₄ :=
        Fenced.fresh_onward moved₄.onward (issued₂.fenced.fresh_of_named did₃)
      have unwon₄ (won : HasWon i v₄.past) : False := by
        have won₂ := hasWon_of_own did₃ nofun (hasWon_before moved₄.onward won)
        exact unwon₁ (hasWon_before moved₂.onward won₂)
      have seen₄ : HasSeenPending k i v₄.past := hasSeenPending_mono moved₄.onward.more
        (hasSeenPending_mono did₃.more (hasSeenPending_mono moved₂.onward.more sought₁.seen))
      refine ⟨issuedRule_claim fresh₄, fun reply v₅ did₅ fair₅ _ => ?_⟩
      have unwon₅ (won : HasWon i v₅.past) : False := unwon₄ (hasWon_of_own did₅ nofun won)
      rcases reply with why | _ | _
      · exact fair₅.1.elim
      · have turned₅ : Turned k i (.inProgress k) v₅.past := {
          unwon := unwon₅
          other := .inr (.inr (hasSeenPending_mono did₅.more seen₄)) }
        exact fun v₆ moved₆ _ => Conduct.meets_throw fun v₇ moved₇ _ =>
          turned_onward moved₇.onward (turned_onward moved₆.onward turned₅)
      · have atLock₅ : AtLock k i v₅.past := {
          holding := holding_of_granted issued₄.fenced fresh₄ did₅
          unwon := unwon₅ }
        have claimed₅ : Claimed k i token v₅ := Fenced.claimed_of_granted did₅
        intro v₆ moved₆ issued₆
        have locked : (issuedOnce visits k).Meets i
            (fun v' outcome => (HasWon i v'.past → HasResult k v'.past) ∧ Served k i outcome.2 v'.past)
            (fun v' why => Turned k i why v'.past) (g.locked (visits i).codec k .server Attempt.work) v₆ :=
          issued_locked g (atLock_borne.lasting v₅ v₆ moved₆ issued₆ atLock₅)
        refine Conduct.meets_leased (Conduct.Meets.weaken (locked.remember Fenced.claimed_suffix
          (Fenced.claimed_onward moved₆.onward claimed₅)) ?_ ?_)
        · exact fun v₇ outcome _ ⟨⟨stored, served⟩, claimed⟩ =>
            issued_giveBack (fun _ _ moved => served_onward moved) (fun _ _ _ did => served_called did)
              stored claimed served
        · exact fun v₇ why _ ⟨turned, claimed⟩ =>
            issued_giveBack (fun _ _ moved => turned_onward moved) (fun _ _ _ did => turned_called did rfl)
              (fun won => absurd won turned.unwon) claimed turned
  · rintro v₁ why _ ⟨unwon₁, rfl⟩
    exact { unwon := unwon₁, other := .inr (.inl rfl) }

/-- A visitor on a route whose keys the server makes. Before it comes to its key it has not looked; the bucket and the
check are elsewhere. -/
theorem issued_visit (g : Guard) (server : (visits i).policy.origin = some .server) (unlooked : ¬ HasLooked k i v.past)
    (unwon : ¬ HasWon i v.past) :
    (issuedOnce (α := α) visits k).Safe i
      (Conduct.either (fun v' r => Served k i r.replayed v'.past) fun v' why => Turned k i why v'.past)
      ((visits i).program g k) v := by
  have lasting : (issuedOnce (α := α) visits k).Lasting i
      fun v => ¬ HasLooked k i v.past ∧ ¬ HasWon i v.past :=
    fun _ _ moved _ new => ⟨fun looked => new.1 (hasLooked_before moved.onward looked),
      fun won => new.2 (hasWon_before moved.onward won)⟩
  refine Conduct.meets_visit g k (visits i) lasting ⟨unlooked, unwon⟩ ?_ ?_ ?_
    (fun _ _ new => { unwon := new.2, other := .inl new.1 }) ?_
  · exact fun _ _ _ _ touched => issuedRule_elsewhere (Visit.bucket_elsewhere touched k)
  · exact fun _ new _ => issuedRule_breaking new.2
  · intro v v' c reply new touched did
    exact ⟨unlooked_own did (unlooked_of_elsewhere (Visit.bucket_elsewhere touched k).1 reply v.now) new.1,
      fun won => new.2 (hasWon_of_own did nofun won)⟩
  · intro v origin admission is new _
    rw [server] at is
    cases is
    exact issued_once g new.2

/-- Looking the key up. Who finds no record is told that the key is unknown, and a caller that only looks never
succeeds. -/
theorem issued_lookup (g : Guard) (unlooked : ¬ HasLooked k i v.past) (unwon : ¬ HasWon i v.past) :
    (issuedOnce (α := α) visits k).Meets i (fun v' _ => ¬ HasWon i v'.past)
      (fun v' why => Turned k i why v'.past) (g.registry.lookup k) v := by
  unfold Registry.lookup
  refine Conduct.Meets.bind (Conduct.meets_checkKey (fun v₁ moved₁ _ => ?_) fun why v₁ moved₁ _ => ?_)
  · have unwon₁ : ¬ HasWon i v₁.past := fun won => unwon (hasWon_before moved₁.onward won)
    refine Conduct.Meets.bind (Conduct.Meets.weaken (issued_find g unwon_borne unwon₁) ?_ fun _ _ _ => False.elim)
    rintro v₂ found _ ⟨unwon₂, _⟩
    cases found with
    | some record => exact Conduct.meets_pure fun v₃ moved₃ _ won => unwon₂ (hasWon_before moved₃.onward won)
    | none =>
      refine Conduct.meets_throw fun v₃ moved₃ _ => ?_
      exact { unwon := fun won => unwon₂ (hasWon_before moved₃.onward won), other := .inr (.inl rfl) }
  · exact turned_onward moved₁.onward (turned_of_new unlooked unwon)

/-- Removing the record. Whether there was one or not, its caller has not succeeded, and it does not look at the record. -/
theorem issued_evict (g : Guard) (unlooked : ¬ HasLooked k i v.past) (unwon : ¬ HasWon i v.past) :
    (issuedOnce (α := α) visits k).Meets i (fun v' _ => ¬ HasWon i v'.past)
      (fun v' why => Turned k i why v'.past) (g.registry.evict k) v := by
  unfold Registry.evict
  refine Conduct.Meets.bind (Conduct.meets_checkKey (fun v₁ moved₁ _ => ?_) fun why v₁ moved₁ _ => ?_)
  · refine Conduct.meets_ask fun v₂ moved₂ _ =>
      ⟨issuedRule_record rfl fun _ => .inr (.inl rfl), fun reply v₃ did₃ fair₃ _ => ?_⟩
    cases reply with
    | error why => exact fair₃.1.elim
    | ok removed =>
      intro v₄ moved₄ _ won
      have won₂ := hasWon_of_own did₃ nofun (hasWon_before moved₄.onward won)
      exact unwon (hasWon_before moved₁.onward (hasWon_before moved₂.onward won₂))
  · exact turned_onward moved₁.onward (turned_of_new unlooked unwon)

/-- Having a key made, whichever it becomes. If it becomes this one, its name is new, so nobody has created the record and
nobody else will before the maker does. -/
theorem issued_generate (g : Guard) (unlooked : ¬ HasLooked k i v.past) (unwon : ¬ HasWon i v.past) :
    (issuedOnce (α := α) visits k).Meets i (fun v' _ => ¬ HasWon i v'.past)
      (fun v' why => Turned k i why v'.past) g.registry.generate v := by
  unfold Registry.generate
  refine Conduct.Meets.bind (Conduct.meets_freshName fun v₁ moved₁ issued₁ => ?_)
  have new₁ : ¬ HasLooked k i v₁.past ∧ ¬ HasWon i v₁.past :=
    ⟨fun looked => unlooked (hasLooked_before moved₁.onward looked),
      fun won => unwon (hasWon_before moved₁.onward won)⟩
  refine ⟨issuedRule_naming, fun name v₂ did₂ _ _ v₃ moved₃ _ => ?_⟩
  have turned₃ (why : Failure) : Turned k i why v₃.past := turned_onward moved₃.onward
    (turned_of_new (unlooked_own did₂ rfl new₁.1) fun won => new₁.2 (hasWon_of_own did₂ nofun won))
  refine Conduct.Meets.bind (Conduct.meets_ask fun v₄ moved₄ _ => ⟨?_, fun reply v₅ did₅ fair₅ _ => ?_⟩)
  · by_cases same : name = k
    · subst same
      have names₂ : Names name i v₂.past := ⟨v₁.now, did₂.noted⟩
      have nothing₁ : writes name v₁.past = [] := by
        by_contra written
        obtain ⟨j, time, noted⟩ := issued₁.made written
        exact did₂.new name rfl _ noted rfl
      have nothing₂ : writes name v₂.past = [] := (writes_own did₂).trans nothing₁
      have nothing₃ := moved₃.unissued names₂ nothing₂
      have names₃ := names_mono moved₃.onward.more names₂
      exact issuedRule_record rfl fun _ => .inr (.inr (.inl
        ⟨_, rfl, names_mono moved₄.onward.more names₃, moved₄.unissued names₃ nothing₃⟩))
    · refine issuedRule_elsewhere ⟨fun here => same (recordKey_injective (Option.some.inj here)), fun here => ?_⟩
      exact recordKey_ne_lockKey name k (Option.some.inj here)
  · have turned₅ (why : Failure) : Turned k i why v₅.past :=
      turned_called did₅ rfl (turned_onward moved₄.onward (turned₃ why))
    rcases reply with why | _ | _
    · exact fair₅.1.elim
    · exact fun v₆ moved₆ _ => Conduct.meets_throw fun v₇ moved₇ _ =>
        turned_onward moved₇.onward (turned_onward moved₆.onward (turned₅ _))
    · exact fun v₆ moved₆ _ => Conduct.meets_pure fun v₇ moved₇ _ won =>
        (turned₅ .missingKey).unwon (hasWon_before moved₆.onward (hasWon_before moved₇.onward won))

/-- Every role follows the rules and ends as told. What a part without a guarded call ends with says nothing of results. -/
theorem safe_role (g : Guard) (server : (visits i).policy.origin = some .server) (role : Role)
    (unlooked : ¬ HasLooked k i v.past) (unwon : ¬ HasWon i v.past) :
    (issuedOnce (α := α) visits k).Safe i (fun v' outcome => role.Ends k i v'.past outcome)
      (role.program g k (visits i)) v := by
  refine Conduct.safe_role g k (visits i) role (fun _ => ?_) (fun is => ?_) (fun is => ?_) fun is => ?_
  · refine Conduct.Safe.weaken (issued_visit g server unlooked unwon) fun v₁ outcome _ told => ?_
    cases outcome with
    | ok r => exact told
    | error why => exact told
  · subst is
    exact Conduct.Meets.weaken (issued_generate g unlooked unwon) (fun _ _ _ unwon => ⟨by decide, unwon⟩)
      fun _ _ _ turned => turned
  · subst is
    exact Conduct.Meets.weaken (issued_lookup g unlooked unwon) (fun _ _ _ unwon => ⟨by decide, unwon⟩)
      fun _ _ _ turned => turned
  · subst is
    exact Conduct.Meets.weaken (issued_evict g unlooked unwon) (fun _ _ _ unwon => ⟨by decide, unwon⟩)
      fun _ _ _ turned => turned

/-- That the record was pending for the last time is kept by every move. A deed that is allowed does not make it pending
again, so no look after it sees that; others from outside do not touch it. -/
theorem keeps_gone (base : List (Note (Except Failure τ))) :
    (issuedOnce (α := α) visits k).Keeps (GoneSince k base) where
  own i deed v v' _ rule did _ := by
    rintro ⟨passed, news, is, unseen⟩
    refine ⟨passed_own rule.record did passed, ⟨i, v.now, deed⟩ :: news, by rw [did.past, is, List.cons_append], ?_⟩
    intro note noted
    rcases List.mem_cons.mp noted with new | old
    · rw [new]
      rintro sees
      have is : deed = .called (.get (recordKey k)) (.ok (some Record.placeholder)) := sees
      subst is
      exact passed.2 (reply_of_look did).symm
    · exact unseen note old
  outside c v v' moved fair := by
    rintro ⟨passed, news, is, unseen⟩
    obtain ⟨_, record, _⟩ := moved.changes
    have same : v'.record = v.record := Deed.changes_elsewhere fair.1.1 record
    exact ⟨passed_of_less moved.past (fun _ there => same ▸ there) passed, news, by rw [moved.past, is], unseen⟩
  waited later v _ := by
    rintro ⟨passed, news, is, unseen⟩
    have less : ∀ e, (v.waited later).record = some e → v.record = some e :=
      fun _ there => (Option.filter_eq_some_iff.mp there).1
    exact ⟨passed_of_less (w := v) rfl less passed, news, is, unseen⟩

/-- A key that the server makes and that is used on no other routes stands for one success, however long it is used,
whenever its record is evicted or runs out, as long as no call fails, results can be written and read, and every lock
is given back in time.

Nothing runs after a success. A visitor that has succeeded does not break down, and returns its result as its own.
And when the record has been created and is gone at some moment, whoever has not looked yet does not run the
operation any more; if it looks, it finds the key unknown or returns a result that is replayed. -/
theorem made_key_succeeds_once_forever (g : Guard) (visits : Nat → Visit τ) (roles : Nat → Role)
    (server : ∀ i, (visits i).policy.origin = some .server)
    {w w' : Crowd α (Except Failure τ) (Except Failure (Option (Guarded τ)))}
    (callers : ∀ i, w.callers i = (roles i).program g k (visits i)) (distinct : w.store.entries.Distinct)
    (nobody : w.past = []) (free : w.store.live? w.now (recordKey k) = none)
    (unlocked : w.store.live? w.now (lockKey k) = none)
    (course : Crowd.Course k (fun move _ v' => move.Undisturbed visits k ∧ InTime k v') w w') :
    (∀ later win earlier, w'.past = later ++ win :: earlier → win.isWin → ∀ note ∈ later, ¬ note.isWork) ∧
      (∀ i, HasWon i w'.past → (∀ held why, w'.callers i ≠ .broken held why) ∧
        ∀ answer, w'.callers i = .done answer → ∃ r, answer = .ok (some r) ∧ r.replayed = false) ∧
      (writes k w'.past ≠ [] → w'.store.live? w'.now (recordKey k) = none →
        ∀ w'', Crowd.Course k (fun move _ v' => move.Undisturbed visits k ∧ InTime k v') w' w'' →
          ∀ i, roles i = .visitor → ¬ HasLooked k i w'.past →
            (∀ note ∈ w''.past, note.caller = i → ¬ note.isWork) ∧
              (∀ held next, w''.callers i ≠ .work held next) ∧
              ∀ answer, w''.callers i = .done answer → HasLooked k i w''.past →
                answer = .error (.unknownKey k) ∨ ∃ r, answer = .ok (some r) ∧ r.replayed = true) := by
  have safe (i : Nat) : (issuedOnce visits k).Safe i (fun v outcome => (roles i).Ends k i v.past outcome)
      (w.callers i) (w.scene k) := by
    rw [callers]
    refine safe_role g (server i) (roles i) ?_ ?_
    · simp [HasLooked, show (w.scene k).past = [] from nobody]
    · simp [HasWon, show (w.scene k).past = [] from nobody]
  obtain ⟨distinct', issued, safe'⟩ :=
    (issuedOnce visits k).course_safe course distinct (Issued.start nobody free unlocked) safe
  refine ⟨?_, fun i won => ⟨?_, ?_⟩, ?_⟩
  · intro later win earlier is wins note noted work
    have order : (later ++ win :: earlier).Pairwise fun later earlier => later.isWork → ¬ earlier.isWin :=
      is ▸ issued.order
    exact (List.pairwise_append.mp order).2.2 note noted win List.mem_cons_self work wins
  · intro held why is
    have mine := safe' i
    rw [is] at mine
    exact (Conduct.Henceforth.here mine issued).breaking rfl won
  · intro answer is
    have mine := safe' i
    rw [is] at mine
    exact Role.Ends.own (Conduct.Henceforth.here mine issued) won
  · intro written gone w'' onward i visitor unlooked
    obtain ⟨_, issued', safe''⟩ := (issuedOnce visits k).course_safe onward distinct' issued safe'
    have since : GoneSince k w'.past (w''.scene k) :=
      (issuedOnce visits k).course_keeps (keeps_gone w'.past) onward distinct' issued safe' (.start written gone)
    have unseen : ¬ HasSeenPending k i w''.past := since.unseen unlooked
    refine ⟨?_, ?_, ?_⟩
    · intro note noted mine work
      exact unseen (mine ▸ issued'.seen note noted work)
    · intro held next works
      have mine := safe'' i
      rw [works] at mine
      exact unseen ((Conduct.Henceforth.here mine issued').1.working rfl).2.2
    · intro answer done looked
      have mine := safe'' i
      rw [done, visitor] at mine
      exact Role.Ends.other (Conduct.Henceforth.here mine issued') looked unseen

end

/-- One caller has a key made, one removes the record, and all others present the key. -/
def madeRoles : Nat → Role
  | 0 => .maker
  | 3 => .evictor
  | _ => .visitor

/-- These callers at an empty store. -/
def madeCrowd (k : String) : Crowd Binary64 (Except Failure String) (Except Failure (Option (Guarded String))) :=
  .atEmptyStore fun i => (madeRoles i).program briefGuard k madeVisit

/-- The record is removed while a visitor runs the operation under the lock. -/
def evictedWhileWorking : List (Cue (Except Failure String)) :=
  [.name 0 "order-1", .call 0, .call 1, .call 1, .name 1 "a", .call 1, .call 1, .call 3]

/-- A second visitor comes when the record is gone, a third when the result has been stored anew. -/
def storedAnew : List (Cue (Except Failure String)) :=
  [.call 2, .call 2, .wait 1000000000, .work 1 (.ok "paid"), .call 1, .call 1, .call 1, .call 4, .call 4, .call 1]

/-- What the two passages check of each step. -/
def checksMade (move : Move (Except Failure String)) (_ v' : Scene Binary64 (Except Failure String)) : Bool :=
  isCalm "order-1" "paid" move && decide (InTime "order-1" v')

/-- In that run the record is evicted while the operation works. The result is stored anew all the same, and a visitor
that comes later runs nothing. -/
theorem made_key_succeeds_once_forever_evicted :
    ∃ w' w'', (madeCrowd "order-1").play "order-1" checksMade evictedWhileWorking = some w' ∧
      w'.play "order-1" checksMade storedAnew = some w'' ∧
      (∃ answer, w''.callers 1 = .done answer ∧ ∃ r, answer = .ok (some r) ∧ r.replayed = false) ∧
      (∀ note ∈ w''.past, note.caller = 2 → ¬ note.isWork) ∧
      ∃ answer, w''.callers 2 = .done answer ∧
        (answer = .error (.unknownKey "order-1") ∨ ∃ r, answer = .ok (some r) ∧ r.replayed = true) := by
  have played : ((madeCrowd "order-1").play "order-1" checksMade evictedWhileWorking).any (fun w' =>
      decide (writes "order-1" w'.past ≠ [] ∧ (w'.store.live? w'.now (recordKey "order-1")).isNone ∧
        ¬ HasLooked "order-1" 2 w'.past) &&
      (w'.play "order-1" checksMade storedAnew).any fun w'' =>
        decide ((w''.callers 1).won?.isSome ∧ HasWon 1 w''.past ∧ (w''.callers 2).lost?.isSome ∧
          HasLooked "order-1" 2 w''.past)) = true := by decide +kernel
  obtain ⟨w', is, facts⟩ := (Option.any_eq_true _ _).mp played
  obtain ⟨first, onward⟩ := Bool.and_eq_true _ _ ▸ facts
  obtain ⟨w'', is', second⟩ := (Option.any_eq_true _ _).mp onward
  obtain ⟨written, gone, unlooked⟩ := of_decide_eq_true first
  obtain ⟨returned, won, turned, looked⟩ := of_decide_eq_true second
  have passed (move : Move (Except Failure String)) (v v' : Scene Binary64 (Except Failure String))
      (checked : checksMade move v v' = true) :
      move.Undisturbed (fun _ => madeVisit) "order-1" ∧ InTime "order-1" v' := by
    obtain ⟨calm, inTime⟩ := Bool.and_eq_true _ _ ▸ checked
    exact ⟨undisturbed_of_isCalm (serializes_paid fun _ => rfl) calm, of_decide_eq_true inTime⟩
  have course := Crowd.course_of_play passed is
  have course' := Crowd.course_of_play passed is'
  obtain ⟨result, wins⟩ := Option.isSome_iff_exists.mp returned
  obtain ⟨why, loses⟩ := Option.isSome_iff_exists.mp turned
  obtain ⟨-, -, never⟩ := made_key_succeeds_once_forever briefGuard (fun _ => madeVisit) madeRoles (fun _ => rfl)
    (fun _ => rfl) Table.distinct_empty rfl rfl rfl course
  obtain ⟨-, own, -⟩ := made_key_succeeds_once_forever briefGuard (fun _ => madeVisit) madeRoles (fun _ => rfl)
    (fun _ => rfl) Table.distinct_empty rfl rfl rfl (course.trans course')
  obtain ⟨unworked, -, answers⟩ := never written (Option.isNone_iff_eq_none.mp gone) w'' course' 2 rfl unlooked
  have returns := Program.done_of_won wins
  have fails := Program.done_of_lost loses
  exact ⟨w', w'', is, is', ⟨_, returns, (own 1 won).2 _ returns⟩, unworked,
    _, fails, answers _ fails looked⟩

end Turnstile
