import Turnstile.Lock
import Turnstile.Proofs.Crowd.Attempts

/-!
Fencing: what the live record of a lock tells about the claims on it.

A claim is a lock that somebody got: since when, with which token and for how long. It is open until its token
has been given back. Tokens are names that nobody else has. The invariant ties the claims that are noted to the
one live entry at the key of the lock: a live entry is that of the last claim, and every other open claim has
run out. Whoever touches the lock only by claiming it with a name of its own and by giving back what it
claimed keeps the invariant, as late as it may come.
-/

namespace Turnstile

variable {α ω : Type}

/-- A lock that somebody got. -/
structure Claim where
  caller : Nat
  since : Moment
  token : String
  life : Span
  deriving DecidableEq

/-- The nanosecond from which a claim has run out. -/
def Claim.ends (c : Claim) : Nat := c.since.nanos + c.life.nanos

/-- The entry that a claim leaves in the store. -/
def Claim.entry (c : Claim) : Entry α := ⟨.text c.token, ⟨c.ends⟩⟩

/-- The claim on a key's lock that a note tells of. -/
def Note.claim? (k : String) (note : Note ω) : Option Claim :=
  match note.deed with
  | .called (.setIfAbsent key token life) (.ok true) =>
    if key = lockKey k then some ⟨note.caller, note.time, token, life⟩ else none
  | _ => none

/-- All claims on a key's lock, last first. -/
def claims (k : String) (past : List (Note ω)) : List Claim := past.filterMap (Note.claim? k)

/-- Whether a note tells that a token was given back. -/
def Note.gaveBack (k token : String) (note : Note ω) : Bool :=
  match note.deed with
  | .called (.deleteIfEquals key given) (.ok _) => key = lockKey k && given = token
  | _ => false

/-- Whether a claim has not been given back. -/
def Claim.isOpen (k : String) (past : List (Note ω)) (c : Claim) : Bool :=
  !past.any (Note.gaveBack k c.token)

/-- Every claim that is open is still running. -/
def InTime (k : String) (v : Scene α ω) : Prop :=
  ∀ claim ∈ claims k v.past, claim.isOpen k v.past = true → v.now.nanos < claim.ends

instance (k : String) (v : Scene α ω) : Decidable (InTime k v) :=
  inferInstanceAs (Decidable (∀ claim ∈ claims k v.past, _ → _))

/-- What the live entry of a lock tells about the claims on it. -/
def LockShows (k : String) (past : List (Note ω)) (now : Moment) : Option (Entry α) → Prop
  | some e => ∃ claim rest, claims k past = claim :: rest ∧ claim.isOpen k past = true ∧ e = claim.entry ∧
      ∀ other ∈ rest, other.isOpen k past = true → other.ends ≤ now.nanos
  | none => ∀ claim ∈ claims k past, claim.isOpen k past = true → claim.ends ≤ now.nanos

/-- What holds of a lock and the notes of it. -/
structure Fenced (k : String) (v : Scene α ω) : Prop where
  /-- A claim is made with a name of the claimant's own. -/
  named : ∀ claim ∈ claims k v.past, ∃ time, ⟨claim.caller, time, .named claim.token⟩ ∈ v.past
  single : ∀ name i j time time', ⟨i, time, .named name⟩ ∈ v.past → ⟨j, time', .named name⟩ ∈ v.past → i = j
  distinct : (claims k v.past).Pairwise (·.token ≠ ·.token)
  /-- A token is given back by the one who claimed with it. -/
  back : ∀ note ∈ v.past, ∀ token, note.gaveBack k token = true →
    ∃ claim ∈ claims k v.past, claim.token = token ∧ claim.caller = note.caller
  shows : LockShows k v.past v.now v.lock

/-- A name that a caller has made up and not claimed with yet. -/
def Fresh (k : String) (i : Nat) (token : String) (v : Scene α ω) : Prop :=
  (∃ time, ⟨i, time, .named token⟩ ∈ v.past) ∧ ∀ claim ∈ claims k v.past, claim.caller = i → claim.token ≠ token

/-- A claim that a caller has made, given back or not. -/
def Claimed (k : String) (i : Nat) (token : String) (v : Scene α ω) : Prop :=
  ∃ claim ∈ claims k v.past, claim.caller = i ∧ claim.token = token

/-- How a lock may be touched: by a claim with a new name, and by giving back what was claimed. -/
def LockRule (k : String) (i : Nat) (v : Scene α ω) : Doing → Prop
  | .calling c => c.key? = some (lockKey k) →
      (∃ token life, c = .setIfAbsent (lockKey k) token life ∧ Fresh k i token v) ∨
        ∃ token, c = .deleteIfEquals (lockKey k) token ∧ Claimed k i token v
  | _ => True

namespace Fenced

variable {v v' : Scene α ω} {k : String} {i j : Nat} {token : String}

/-- A note that tells nothing about the lock. -/
structure Idle (k : String) (note : Note ω) : Prop where
  unclaimed : note.claim? k = none
  kept : ∀ token, note.gaveBack k token = false

/-- As long as nobody has made up a name, claimed the lock or given it back, all that the notes could tell of it is that
it is free. -/
theorem untouched (free : v.lock = none) (idle : ∀ note ∈ v.past, Idle k note)
    (unnamed : ∀ note ∈ v.past, ∀ name, note.deed ≠ .named name) : Fenced k v := by
  have none : claims k v.past = [] := List.filterMap_eq_nil_iff.mpr fun note noted => (idle note noted).unclaimed
  exact {
    named := by simp [none]
    single := fun name i j time time' noted => absurd rfl (unnamed _ noted name)
    distinct := by simp [none]
    back := fun note noted token gave => by
      rw [(idle note noted).kept token] at gave
      cases gave
    shows := by simp [LockShows, none, free] }

/-- Before anybody does anything the lock is free, and there are no notes that could tell otherwise. -/
theorem start (nothing : v.past = []) (free : v.lock = none) : Fenced k v := by
  apply untouched free <;> simp [nothing]

/-! What lasts while others move. -/

/-- A claim that was noted stays noted. -/
theorem claims_mono {past past' : List (Note ω)} (more : past ⊆ past') {claim : Claim}
    (claimed : claim ∈ claims k past) : claim ∈ claims k past' := by
  obtain ⟨note, noted, is⟩ := List.mem_filterMap.mp claimed
  exact List.mem_filterMap.mpr ⟨note, more noted, is⟩

/-- The claimant of a claim is whoever the note is about, and the note is of the call that set the lock. -/
theorem caller_of_claim {note : Note ω} {claim : Claim} (is : note.claim? k = some claim) :
    claim.caller = note.caller := by
  unfold Note.claim? at is
  split at is
  · split at is
    · injection is with same
      rw [← same]
    · cases is
  · cases is

/-- While others move nobody gets a claim of one's own: all that is noted in between is about them. -/
theorem claims_mine (moved : v.Onward i v') {claim : Claim} (claimed : claim ∈ claims k v'.past)
    (mine : claim.caller = i) : claim ∈ claims k v.past := by
  obtain ⟨note, noted, is⟩ := List.mem_filterMap.mp claimed
  have about : note.caller = i := (caller_of_claim is).symm.trans mine
  exact List.mem_filterMap.mpr ⟨note, moved.mine noted about, is⟩

/-- A name that a caller has not claimed with stays so while others move, since their claims are not the caller's. -/
theorem fresh_onward (moved : v.Onward i v') (fresh : Fresh k i token v) : Fresh k i token v' := by
  obtain ⟨⟨time, noted⟩, unclaimed⟩ := fresh
  exact ⟨⟨time, moved.more noted⟩, fun claim claimed mine =>
    unclaimed claim (claims_mine moved claimed mine) mine⟩

/-- What was claimed stays claimed, whatever else is noted. The notes before are kept behind the new ones. -/
theorem claimed_suffix (past past' : List (Note ω)) (more : past <:+ past')
    (claimed : ∃ claim ∈ claims k past, claim.caller = i ∧ claim.token = token) :
    ∃ claim ∈ claims k past', claim.caller = i ∧ claim.token = token := by
  obtain ⟨claim, here, is⟩ := claimed
  exact ⟨claim, claims_mono more.subset here, is⟩

/-- And so what a caller has claimed stays claimed while others move. -/
theorem claimed_onward (moved : v.Onward i v') (claimed : Claimed k i token v) : Claimed k i token v' := by
  obtain ⟨claim, here, is⟩ := claimed
  exact ⟨claim, claims_mono moved.more here, is⟩

/-! What a note adds. -/

/-- A call that failed tells nothing about the lock, for it neither claimed it nor gave it back. -/
theorem idle_of_failed (c : Call) (why : Failure) (time : Moment) :
    Idle k (⟨i, time, .called c (.error why)⟩ : Note ω) where
  unclaimed := by cases c <;> rfl
  kept _ := by cases c <;> rfl

/-- Nor does a call at another key. The two calls that speak of a token are compared with the key of the lock, and no
other call speaks of one. -/
theorem idle_of_elsewhere {c : Call} (elsewhere : c.key? ≠ some (lockKey k)) (reply : Except Failure c.Reply)
    (time : Moment) : Idle k (⟨i, time, .called c reply⟩ : Note ω) := by
  cases reply with
  | error why => exact idle_of_failed c why time
  | ok reply =>
    cases c with
    | setIfAbsent key value life =>
      have other : key ≠ lockKey k := fun same => elsewhere (congrArg some same)
      have unclaimed : (⟨i, time, .called (.setIfAbsent key value life) (.ok reply)⟩ : Note ω).claim? k = none := by
        cases reply <;> simp [Note.claim?, other]
      exact { unclaimed, kept := fun _ => rfl }
    | deleteIfEquals key expected =>
      have other : key ≠ lockKey k := fun same => elsewhere (congrArg some same)
      exact { unclaimed := rfl, kept := fun _ => by simp [Note.gaveBack, other] }
    | _ => exact { unclaimed := rfl, kept := fun _ => rfl }

/-- A note that is no claim leaves the claims as they were. -/
theorem claims_cons {note : Note ω} (past : List (Note ω)) (unclaimed : note.claim? k = none) :
    claims k (note :: past) = claims k past := by
  simp [claims, unclaimed]

/-- A claim is open after one more note if it was open and the note does not give it back. -/
theorem isOpen_cons (note : Note ω) (past : List (Note ω)) (claim : Claim) :
    claim.isOpen k (note :: past) = (!note.gaveBack k claim.token && claim.isOpen k past) := by
  simp [Claim.isOpen]

/-- What has expired is not shown, and whoever claimed it has run out. The store drops the entry at the moment when the
claim ends, so what is shown and what is still running agree at any later time. -/
theorem shows_filter {past : List (Note ω)} {now later : Moment} {lock : Option (Entry α)}
    (shows : LockShows k past now lock) (ahead : now ≤ later) :
    LockShows k past later (lock.filter (·.isLive later)) := by
  have onward {claim : Claim} (ended : claim.ends ≤ now.nanos) : claim.ends ≤ later.nanos :=
    Nat.le_trans ended ahead
  cases lock with
  | none => exact fun claim claimed isOpen => onward (shows claim claimed isOpen)
  | some e =>
    obtain ⟨claim, rest, all, isOpen, is, others⟩ := shows
    by_cases live : e.isLive later = true
    · rw [Option.filter_some, if_pos live]
      exact ⟨claim, rest, all, isOpen, is, fun other here stillOpen => onward (others other here stillOpen)⟩
    · rw [Option.filter_some, if_neg live]
      have ended : claim.ends ≤ later.nanos := by
        rw [is] at live
        exact Nat.not_lt.mp fun inside => live (decide_eq_true inside)
      intro other claimed stillOpen
      rw [all] at claimed
      rcases List.mem_cons.mp claimed with same | here
      · exact same ▸ ended
      · exact onward (others other here stillOpen)

/-- A note that does not give the last claim back leaves open no more than was open. So the live entry goes on to tell
of the same claim, and all others that are open have ended. -/
theorem shows_cons {note : Note ω} {past : List (Note ω)} {now : Moment} {lock : Option (Entry α)}
    (shows : LockShows k past now lock) (same : claims k (note :: past) = claims k past)
    (kept : ∀ claim rest e, lock = some e → claims k past = claim :: rest →
      note.gaveBack k claim.token = false) : LockShows k (note :: past) now lock := by
  have before {claim : Claim} (isOpen : claim.isOpen k (note :: past) = true) : claim.isOpen k past = true := by
    rw [isOpen_cons, Bool.and_eq_true] at isOpen
    exact isOpen.2
  cases lock with
  | none => exact fun claim claimed isOpen => shows claim (same ▸ claimed) (before isOpen)
  | some e =>
    obtain ⟨claim, rest, all, isOpen, is, others⟩ := shows
    refine ⟨claim, rest, same.trans all, ?_, is, fun other here stillOpen => others other here (before stillOpen)⟩
    rw [isOpen_cons, kept claim rest e rfl all, isOpen]
    rfl

/-- Time passes; what has expired is not shown any more, and nothing else that holds of the lock speaks of the time. -/
theorem waited {later : Moment} (fenced : Fenced k v) (ahead : v.now ≤ later) : Fenced k (v.waited later) :=
  { fenced with shows := shows_filter fenced.shows ahead }

/-- No two claims were made with one token, so a token tells which claim is meant. -/
theorem token_injective (fenced : Fenced k v) {claim other : Claim} (here : claim ∈ claims k v.past)
    (there : other ∈ claims k v.past) (same : claim.token = other.token) : claim = other := by
  have apart : (claims k v.past).Pairwise fun a b => a.token = b.token → a = b :=
    fenced.distinct.imp fun different is => absurd is different
  have flipped : (claims k v.past).Pairwise (flip fun a b : Claim => a.token = b.token → a = b) :=
    fenced.distinct.imp fun different is => absurd is.symm different
  exact List.Pairwise.forall_of_forall_of_flip (fun _ _ _ => rfl) apart flipped here there same

/-- A token is given back by nobody but its claimant: whoever gave it back had made a claim with it, and that is the
only one. -/
theorem claimant_of_back (fenced : Fenced k v) {note : Note ω} (noted : note ∈ v.past)
    (gave : note.gaveBack k token = true) {claim : Claim} (claimed : claim ∈ claims k v.past)
    (is : claim.token = token) : claim.caller = note.caller := by
  obtain ⟨other, there, same, by'⟩ := fenced.back note noted token gave
  rw [fenced.token_injective claimed there (is.trans same.symm), by']

/-- A new name is the token of no claim. Nobody else has made up this name, and the caller has not claimed with it. -/
theorem unused_of_fresh (fenced : Fenced k v) (fresh : Fresh k i token v) (other : Claim)
    (claimed : other ∈ claims k v.past) : token ≠ other.token := by
  obtain ⟨⟨time, noted⟩, unclaimed⟩ := fresh
  intro same
  obtain ⟨time', noted'⟩ := fenced.named other claimed
  have mine : other.caller = i := fenced.single other.token other.caller i time' time noted' (same ▸ noted)
  exact unclaimed other claimed mine same.symm

/-- What is the token of no claim has not been given back, as only claimants give back. -/
theorem notGiven_of_unused (fenced : Fenced k v) (unused : ∀ other ∈ claims k v.past, token ≠ other.token)
    (note : Note ω) (noted : note ∈ v.past) : note.gaveBack k token = false := by
  refine Bool.eq_false_iff.mpr fun gave => ?_
  obtain ⟨other, claimed, is, _⟩ := fenced.back note noted token gave
  exact unused other claimed is.symm

/-- Among the claims that are open at most one is still running. If the lock is free none is, and if it is held every
open claim but the last has ended. -/
theorem running_unique (fenced : Fenced k v) {claim other : Claim} (here : claim ∈ claims k v.past)
    (there : other ∈ claims k v.past) (isOpen : claim.isOpen k v.past = true)
    (otherOpen : other.isOpen k v.past = true) (running : v.now.nanos < claim.ends)
    (otherRunning : v.now.nanos < other.ends) : claim = other := by
  have shows := fenced.shows
  cases held : v.lock with
  | none =>
    rw [held] at shows
    exact absurd (shows claim here isOpen) (Nat.not_le.mpr running)
  | some e =>
    rw [held] at shows
    obtain ⟨last, rest, all, _, _, ended⟩ := shows
    rw [all] at here there
    rcases List.mem_cons.mp here with first | earlier <;> rcases List.mem_cons.mp there with first' | earlier'
    · exact first.trans first'.symm
    · exact absurd (ended other earlier' otherOpen) (Nat.not_le.mpr otherRunning)
    · exact absurd (ended claim earlier isOpen) (Nat.not_le.mpr running)
    · exact absurd (ended claim earlier isOpen) (Nat.not_le.mpr running)

variable [TokenNumber α]

/-- Names stay single when a new one is made up, because a name that is drawn is in none of the notes before. -/
theorem single_own {deed : Deed ω} (fenced : Fenced k v) (did : Scene.Own k i deed v v') :
    ∀ name i j time time', ⟨i, time, .named name⟩ ∈ v'.past → ⟨j, time', .named name⟩ ∈ v'.past → i = j := by
  intro name one other time time' first second
  rw [did.past] at first second
  rcases List.mem_cons.mp first with new | old <;> rcases List.mem_cons.mp second with new' | old'
  · injection new with is
    injection new' with is'
    exact is.trans is'.symm
  · injection new with _ _ named
    exact absurd rfl (did.new name named.symm _ old')
  · injection new' with _ _ named
    exact absurd rfl (did.new name named.symm _ old)
  · exact fenced.single name one other time time' old old'

/-- A deed that claims nothing keeps the lock fenced, if the lock shows what it should. What the deed gives back is the
caller's, and everything else is told by the same claims. -/
theorem own_unclaimed {deed : Deed ω} (fenced : Fenced k v) (did : Scene.Own k i deed v v')
    (unclaimed : (⟨i, v.now, deed⟩ : Note ω).claim? k = none)
    (back : ∀ token, (⟨i, v.now, deed⟩ : Note ω).gaveBack k token = true → Claimed k i token v)
    (shows : LockShows k v'.past v'.now v'.lock) : Fenced k v' := by
  have same : claims k v'.past = claims k v.past := by rw [did.past, claims_cons v.past unclaimed]
  exact {
    named := fun claim claimed => by
      obtain ⟨time, noted⟩ := fenced.named claim (same ▸ claimed)
      exact ⟨time, did.more noted⟩
    single := fenced.single_own did
    distinct := same ▸ fenced.distinct
    back := fun note noted token gave => by
      rw [did.past] at noted
      rw [same]
      rcases List.mem_cons.mp noted with new | old
      · rw [new] at gave ⊢
        obtain ⟨claim, claimed, mine, is⟩ := back token gave
        exact ⟨claim, claimed, is, mine⟩
      · exact fenced.back note old token gave
    shows := shows }

/-- A deed that tells nothing about the lock and leaves it as it is keeps it fenced, as no claim is opened or closed by
it. -/
theorem own_idle {deed : Deed ω} (fenced : Fenced k v) (did : Scene.Own k i deed v v')
    (idle : Idle k (⟨i, v.now, deed⟩ : Note ω)) (same : v'.lock = v.lock) : Fenced k v' := by
  refine fenced.own_unclaimed did idle.unclaimed ?_ ?_
  · intro token gave
    rw [idle.kept token] at gave
    cases gave
  · rw [did.past, did.now, same]
    exact shows_cons fenced.shows (claims_cons v.past idle.unclaimed) fun claim _ _ _ _ => idle.kept claim.token

/-- A claim that the store grants keeps the lock fenced. Nobody else's open claim is still running, for the lock was
free; so the new claim is the only one that runs. -/
theorem own_claimed {token : String} {life : Span} (fenced : Fenced k v) (fresh : Fresh k i token v)
    (did : Scene.Own k i (.called (.setIfAbsent (lockKey k) token life) (.ok true)) v v') : Fenced k v' := by
  have unused := fenced.unused_of_fresh fresh
  obtain ⟨⟨time, noted⟩, _⟩ := fresh
  let claim : Claim := ⟨i, v.now, token, life⟩
  have all : claims k v'.past = claim :: claims k v.past := by simp [did.past, claims, Note.claim?, claim]
  refine ⟨?named, fenced.single_own did, ?distinct, ?back, ?shows⟩
  case named =>
    intro other claimed
    rw [all] at claimed
    rcases List.mem_cons.mp claimed with new | old
    · exact ⟨time, did.more (by rw [new]; exact noted)⟩
    · obtain ⟨time', noted'⟩ := fenced.named other old
      exact ⟨time', did.more noted'⟩
  case distinct =>
    rw [all]
    exact List.pairwise_cons.mpr ⟨unused, fenced.distinct⟩
  case back =>
    intro note noted given gave
    rw [did.past] at noted
    rcases List.mem_cons.mp noted with new | old
    · rw [new] at gave
      cases gave
    · obtain ⟨other, claimed, is⟩ := fenced.back note old given gave
      exact ⟨other, by rw [all]; exact List.mem_cons_of_mem _ claimed, is⟩
  case shows =>
    -- The lock was free, so the store shows the new claim, and shows it for as long as it runs.
    obtain ⟨e, decided, shown⟩ := Deed.changes_at rfl did.lock
    obtain ⟨free, expires, reached, is⟩ := Call.onEntry_set_true decided
    have ended := fenced.shows
    rw [free] at ended
    have ends : (⟨.text token, expires⟩ : Entry α) = claim.entry := by
      simp only [Claim.entry, Claim.ends, claim, ← Store.later_nanos reached]
    have shows : LockShows k v'.past v.now (some (claim.entry : Entry α)) := by
      refine ⟨claim, claims k v.past, all, ?_, rfl, ?_⟩
      · simpa [Claim.isOpen, claim, did.past, Note.gaveBack] using fenced.notGiven_of_unused unused
      · intro other claimed stillOpen
        refine ended other claimed ?_
        rw [did.past, isOpen_cons] at stillOpen
        simpa [Note.gaveBack] using stillOpen
    rw [shown, is, ends, did.now]
    exact shows_filter shows (Nat.le_refl _)

/-- A claim that the store refuses changes nothing but that an expired entry is dropped. -/
theorem own_refused {token : String} {life : Span} (fenced : Fenced k v)
    (did : Scene.Own k i (.called (.setIfAbsent (lockKey k) token life) (.ok false)) v v') : Fenced k v' := by
  have unclaimed : (⟨i, v.now, .called (.setIfAbsent (lockKey k) token life) (.ok false)⟩ : Note ω).claim? k = none :=
    rfl
  have same : v'.lock = v.lock.filter (·.isLive v.now) := by
    obtain ⟨e, decided, shown⟩ := Deed.changes_at rfl did.lock
    rw [shown, (Call.onEntry_set_false decided).2]
  refine fenced.own_unclaimed did unclaimed nofun ?_
  rw [did.past, did.now, same]
  exact shows_filter (shows_cons fenced.shows (claims_cons v.past unclaimed) fun claim _ _ _ _ => rfl)
    (Nat.le_refl _)

/-- Giving back removes the caller's own entry and no other. If the token stands in the lock it is the last claim's, and
then no open claim is running; if it does not, the last claim is somebody else's and stays. -/
theorem own_givenBack {token : String} {reply : Bool} (fenced : Fenced k v) (claimed : Claimed k i token v)
    (did : Scene.Own k i (.called (.deleteIfEquals (lockKey k) token) (.ok reply)) v v') : Fenced k v' := by
  obtain ⟨e, decided, shown⟩ := Deed.changes_at rfl did.lock
  refine fenced.own_unclaimed did rfl ?_ ?_
  · intro given gave
    have same : token = given := by simpa [Note.gaveBack] using gave
    exact same ▸ claimed
  · have before {claim : Claim} (isOpen : claim.isOpen k v'.past = true) :
        claim.isOpen k v.past = true ∧ token ≠ claim.token := by
      rw [did.past, isOpen_cons, Bool.and_eq_true] at isOpen
      refine ⟨isOpen.2, fun same => ?_⟩
      simp [Note.gaveBack, same] at isOpen
    have same : claims k v'.past = claims k v.past := by rw [did.past, claims_cons v.past rfl]
    have shows := fenced.shows
    rw [shown, did.now]
    refine shows_filter ?_ (Nat.le_refl _)
    cases reply with
    | true =>
      obtain ⟨expected, gone⟩ := Call.onEntry_remove_true decided
      rw [gone]
      cases held : v.lock with
      | none => rw [held] at expected; cases expected
      | some entry =>
        rw [held] at shows expected
        obtain ⟨claim, rest, all, _, is, others⟩ := shows
        have mine : claim.token = token := by
          rw [is] at expected
          exact Option.some.inj expected
        intro other here stillOpen
        rw [same, all] at here
        rcases List.mem_cons.mp here with last | earlier
        · exact absurd (mine.symm.trans (congrArg Claim.token last.symm)) (before stillOpen).2
        · exact others other earlier (before stillOpen).1
    | false =>
      obtain ⟨unexpected, still⟩ := Call.onEntry_remove_false decided
      rw [still]
      cases held : v.lock with
      | none =>
        rw [held] at shows
        exact fun claim here isOpen => shows claim (same ▸ here) (before isOpen).1
      | some entry =>
        rw [held] at shows unexpected
        obtain ⟨claim, rest, all, isOpen, is, others⟩ := shows
        have other : token ≠ claim.token := by
          intro mine
          rw [is, mine] at unexpected
          exact unexpected rfl
        refine ⟨claim, rest, same.trans all, ?_, is, fun earlier here stillOpen =>
          others earlier here (before stillOpen).1⟩
        rw [did.past, isOpen_cons, isOpen]
        simp [Note.gaveBack, other]

/-- Whoever follows the rule of the lock keeps it fenced. A deed that touches the lock is a claim, granted or refused,
or it gives back; any other deed is idle. -/
theorem own {deed : Deed ω} (fenced : Fenced k v) (rule : LockRule k i v deed.doing)
    (did : Scene.Own k i deed v v') : Fenced k v' := by
  have lock := did.lock
  cases deed with
  | broke c why => exact fenced.own_idle did { unclaimed := rfl, kept := fun _ => rfl } lock
  | named name => exact fenced.own_idle did { unclaimed := rfl, kept := fun _ => rfl } lock
  | worked answer => exact fenced.own_idle did { unclaimed := rfl, kept := fun _ => rfl } lock
  | called c reply =>
    cases reply with
    | error why => exact fenced.own_idle did (idle_of_failed c why v.now) lock
    | ok reply =>
      by_cases touched : c.key? = some (lockKey k)
      · rcases rule touched with ⟨token, life, rfl, fresh⟩ | ⟨token, rfl, claimed⟩
        · cases reply with
          | true => exact fenced.own_claimed fresh did
          | false => exact fenced.own_refused did
        · exact fenced.own_givenBack claimed did
      · exact fenced.own_idle did (idle_of_elsewhere touched (.ok reply) v.now)
          (Deed.changes_elsewhere touched lock)

/-- A call from outside that leaves the lock alone keeps it fenced, since it is not among the notes. -/
theorem outside {c : Call} (fenced : Fenced k v) (elsewhere : c.key? ≠ some (lockKey k))
    (moved : Scene.Outside k c v v') : Fenced k v' := by
  obtain ⟨now, past, reply, _, lock⟩ := moved
  have same : v'.lock = v.lock := Deed.changes_elsewhere elsewhere lock
  exact {
    named := past ▸ fenced.named
    single := past ▸ fenced.single
    distinct := past ▸ fenced.distinct
    back := past ▸ fenced.back
    shows := by
      rw [past, now, same]
      exact fenced.shows }

/-- A name that has just been made up has not been claimed with, because every claim was made with a name that had been
made up before. -/
theorem fresh_of_named (fenced : Fenced k v)
    (did : Scene.Own k i (.named token) v v') : Fresh k i token v' := by
  refine ⟨⟨v.now, did.noted⟩, ?_⟩
  intro claim claimed _ same
  rw [did.past, claims_cons v.past rfl] at claimed
  obtain ⟨time, noted⟩ := fenced.named claim claimed
  exact did.new token rfl _ noted (by rw [same])

/-- A try that the store grants is a claim with that token. -/
theorem claimed_of_granted {life : Span}
    (did : Scene.Own k i (.called (.setIfAbsent (lockKey k) token life) (.ok true)) v v') :
    Claimed k i token v' := by
  refine ⟨⟨i, v.now, token, life⟩, ?_, rfl, rfl⟩
  simp [did.past, claims, Note.claim?]

end Fenced

end Turnstile
