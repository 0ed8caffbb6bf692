import Turnstile.Proofs.Guard.Errand
import Turnstile.Proofs.Store.Serving

/-!
Tenants of one store do not interfere.

Callers on errands fall into two groups that share no idempotency key and no bucket. All of them work on one store with
one schedule of sweeps, and take their steps in any order. When the steps of the second group are left out and only the
time that passes is kept, each caller of the first group does the same things at the same times, gets the same answers
and goes away with the same result, whatever texts the second group chose for its keys, clients, paths and methods.

The two courses are followed side by side. A step of the second group, and a purge, is one of the whole course only and
shows nothing at any key of the first group; a step of the first group is one of both. What a call answers is decided
by the live entry at its key, so that the sweeps, which come at other moments in the two courses, do not matter.
-/

namespace Turnstile

variable {α τ ω β : Type}

/-- A key of the store that an errand may touch. -/
inductive Errand.Touches (i : Nat) (past : List (Note (Except Failure τ))) (errand : Errand τ) : String → Prop
  | bucket (bucket : BucketKey) (here : errand.bucket? = some bucket) : Touches i past errand bucket.text
  | record (key : String) (about : errand.About i past key) : Touches i past errand (recordKey key)
  | lock (key : String) (about : errand.About i past key) : Touches i past errand (lockKey key)

/-- The groups share no idempotency key, given or made up, and no bucket. -/
structure Apart (errands : Nat → Errand τ) (first : Nat → Bool) (past : List (Note (Except Failure τ))) : Prop where
  keys : ∀ i j key, first i = true → first j = false → (errands i).About i past key → ¬ (errands j).About j past key
  buckets : ∀ i j bucket, first i = true → first j = false → (errands i).bucket? = some bucket →
    (errands j).bucket? ≠ some bucket

/-- Nobody outside the crowd makes this move. -/
def Move.isInside : Move ω → Bool
  | .outside _ => false
  | _ => true

/-- A move of the first group, or time that passes. -/
def Move.concerns (first : Nat → Bool) : Move ω → Bool
  | .own i _ => first i
  | .outside _ | .purge => false
  | .wait _ => true

/-- A move that concerns the first group is not made outside the crowd. -/
theorem Move.inside_of_concerns {first : Nat → Bool} {move : Move ω} (concerns : move.concerns first = true) :
    move.isInside = true := by
  cases move with
  | outside c => cases concerns
  | _ => rfl

/-- A cue for the first group, or for time to pass. -/
def Cue.concerns (first : Nat → Bool) : Cue ω → Bool
  | .call i | .fail i _ | .name i _ | .work i _ => first i
  | .outside _ | .purge => false
  | .wait _ => true

/-- Callers are played without anybody outside. -/
def Crowd.playInside [TokenNumber α] (cues : List (Cue ω)) (w : Crowd α ω β) : Option (Crowd α ω β) :=
  w.play "" (fun move _ _ => move.isInside) cues

/-- The store breaks down nowhere on the way. -/
def Crowd.StaysWhole [TokenNumber α] (w : Crowd α ω β) (cues : List (Cue ω)) : Prop :=
  ∀ before, before <+: cues → ∀ w', w.playInside before = some w' → w'.store.isBroken = false

section

variable {errands : Nat → Errand τ} {first : Nat → Bool} {past past' : List (Note (Except Failure τ))} {g : Guard}
  {i j : Nat}

/-- An errand stays about a key that it made up, whatever is noted besides. -/
theorem Errand.About.mono {errand : Errand τ} {key : String} (more : past ⊆ past') (about : errand.About i past key) :
    errand.About i past' key := by
  cases about with
  | given _ _ is => exact .given _ _ is
  | made _ time named => exact .made _ time (more named)

/-- An errand that is given a key is about no other, for only an errand without one makes up its own. -/
theorem Errand.About.is_given {errand : Errand τ} {key key' : String} (about : errand.About i past key)
    (given : errand.key? = some key') : key = key' := by
  cases about with
  | given _ _ is => exact Option.some.inj (is.symm.trans given)
  | made => cases given

/-- So the keys of the store that an errand may touch only grow. -/
theorem Errand.Touches.mono {errand : Errand τ} {key : String} (more : past ⊆ past')
    (touches : errand.Touches i past key) : errand.Touches i past' key := by
  cases touches with
  | bucket bucket here => exact .bucket bucket here
  | record key about => exact .record key (about.mono more)
  | lock key about => exact .lock key (about.mono more)

/-- Every call of an errand is at a key that the errand touches: at its bucket, or at the record or the lock of a key
that it is about. -/
theorem Errand.Calls.touches {errand : Errand τ} {c : Call} (calls : errand.Calls g i past c) :
    ∃ key, c.key? = some key ∧ errand.Touches i past key := by
  cases calls with
  | bucket _ bucket _ here touched => exact ⟨_, touched, .bucket bucket here⟩
  | look _ key about => exact ⟨_, rfl, .record key about⟩
  | issue _ key about => exact ⟨_, rfl, .record key about⟩
  | replace _ key result passes => exact ⟨_, rfl, .record key (.given _ key passes.about)⟩
  | create _ key result passes => exact ⟨_, rfl, .record key (.given _ key passes.about)⟩
  | evict key => exact ⟨_, rfl, .record key (.given _ key rfl)⟩
  | lock _ key _ about touched => exact ⟨_, touched, .lock key about⟩

/-- Callers of different groups touch different keys of the store: kinds of keys stay apart, and so do keys of one
kind. -/
theorem Apart.touches (apart : Apart errands first past) (mine : first i = true) (other : first j = false)
    {key key' : String} (touches : (errands i).Touches i past key) (touches' : (errands j).Touches j past key') :
    key ≠ key' := by
  intro same
  cases touches with
  | bucket bucket here =>
    obtain ⟨client, path, method, at'⟩ := Errand.bucket_of here
    cases touches' with
    | bucket bucket' here' =>
      obtain rfl : bucket = bucket' := by
        cases bucket
        cases bucket'
        exact congrArg BucketKey.mk same
      exact apart.buckets i j bucket mine other here here'
    | record name _ => exact bucketKey_ne_recordKey _ _ _ name (at' ▸ same)
    | lock name _ => exact bucketKey_ne_lockKey _ _ _ name (at' ▸ same)
  | record name about =>
    cases touches' with
    | bucket bucket' here' =>
      obtain ⟨client, path, method, at'⟩ := Errand.bucket_of here'
      exact bucketKey_ne_recordKey _ _ _ name (at' ▸ same.symm)
    | record name' about' =>
      obtain rfl := recordKey_injective same
      exact apart.keys i j name mine other about about'
    | lock name' _ => exact recordKey_ne_lockKey name name' same
  | lock name about =>
    cases touches' with
    | bucket bucket' here' =>
      obtain ⟨client, path, method, at'⟩ := Errand.bucket_of here'
      exact bucketKey_ne_lockKey _ _ _ name (at' ▸ same.symm)
    | record name' _ => exact recordKey_ne_lockKey name' name same.symm
    | lock name' about' =>
      obtain rfl := lockKey_injective same
      exact apart.keys i j name mine other about about'

end

/-! What steps do to notes and to a store that may break down. -/

namespace Crowd

variable [TokenNumber α] {w w' : Crowd α ω β} {move : Move ω}

/-- A step adds one note or none, and takes none away. -/
theorem Step.suffix (step : w.Step move w') : w.past <:+ w'.past := by
  cases step with
  | answered | failed | broke | named | worked => exact List.suffix_cons _ _
  | outside | purge | wait => exact List.suffix_refl _

/-- Time does not run back, and only waiting lets it pass. -/
theorem Step.ahead (step : w.Step move w') : w.now ≤ w'.now := by
  cases step with
  | wait later ahead => exact ahead
  | answered | failed | broke | named | worked | outside | purge => exact Nat.le_refl _

/-- A store that is whole after a step was so before: once a call has broken it down, no step mends it. -/
theorem Step.whole (step : w.Step move w') (whole : w'.store.isBroken = false) : w.store.isBroken = false := by
  cases step with
  | answered i held c next store reply ready performed =>
    exact (Store.answered_of_whole (by rw [performed]; exact whole)).1
  | broke i held c next store why ready performed =>
    exact (Store.answered_of_whole (by rw [performed]; exact whole)).1
  | failed | named | worked | wait => exact whole
  | outside c => exact (Store.answered_of_whole whole).1
  | purge => exact Store.whole_of_purged whole

/-- A caller whose turn it is to call leaves the store as the call does, whatever comes of it. -/
theorem follow_call {i : Nat} {held : Option Lease} {c : Call} {next : Except Failure c.Reply → Program ω β}
    (ready : w.callers i = .call held c next) :
    ∃ move w', w.follow (.call i) = some (move, w') ∧ w'.store = (w.store.perform w.now c).1 := by
  simp only [follow, ready]
  rcases w.store.perform w.now c with ⟨store, why | reply⟩ <;> exact ⟨_, _, rfl, rfl⟩

/-- What a cue asks for concerns the first group if the cue does, as a cue names the caller that moves. -/
theorem concerns_of_follow {first : Nat → Bool} {cue : Cue ω} (followed : w.follow cue = some (move, w')) :
    move.concerns first = cue.concerns first := by
  cases cue with
  | call i =>
    simp only [follow] at followed
    split at followed
    · split at followed <;> cases followed <;> rfl
    · cases followed
  | fail i why =>
    simp only [follow] at followed
    split at followed <;> cases followed
    rfl
  | name i name =>
    simp only [follow] at followed
    split at followed
    · split at followed <;> cases followed
      rfl
    · cases followed
  | work i answer =>
    simp only [follow] at followed
    split at followed <;> cases followed
    rfl
  | outside c => cases followed; rfl
  | purge => cases followed; rfl
  | wait nanos => cases followed; rfl

/-- Playing on after a cue: it led to a move of the crowd's own, and the other cues are played from there. -/
theorem playInside_cons {cue : Cue ω} {cues : List (Cue ω)} (played : w.playInside (cue :: cues) = some w') :
    ∃ move next, w.follow cue = some (move, next) ∧ move.isInside = true ∧ next.playInside cues = some w' := by
  unfold playInside play at played
  split at played
  · rename_i move next followed
    split at played
    · rename_i inside
      exact ⟨move, next, followed, inside, played⟩
    · cases played
  · cases played

/-- The other way round, a cue that leads to such a move may be put in front. -/
theorem playInside_of_follow {next : Crowd α ω β} {cue : Cue ω} {cues : List (Cue ω)}
    (followed : w.follow cue = some (move, next)) (inside : move.isInside = true) :
    w.playInside (cue :: cues) = next.playInside cues := by
  simp only [playInside, play, followed, inside, if_true]

/-- What holds from the start of each step to its end holds from the start of what is played to its end. The induction
is on the cues, and what is related has to be so at rest and one step further. -/
theorem along_play (relates : Crowd α ω β → Crowd α ω β → Prop) {cues : List (Cue ω)}
    (played : w.playInside cues = some w') (same : ∀ w, relates w w)
    (onward : ∀ w next w' move, w.Step move next → relates next w' → relates w w') : relates w w' := by
  induction cues generalizing w with
  | nil =>
    cases played
    exact same _
  | cons cue cues inductionHypothesis =>
    obtain ⟨move, next, followed, -, rest⟩ := playInside_cons played
    exact onward w next w' move (step_of_follow followed) (inductionHypothesis rest)

/-- No time runs back while cues are played. -/
theorem ahead_of_play {cues : List (Cue ω)} (played : w.playInside cues = some w') : w.now ≤ w'.now :=
  along_play (fun w w' => w.now ≤ w'.now) played (fun w => Nat.le_refl w.now.nanos)
    fun _ _ _ _ step later => Nat.le_trans step.ahead later

/-- Nor is a note taken back. -/
theorem suffix_of_play {cues : List (Cue ω)} (played : w.playInside cues = some w') : w.past <:+ w'.past :=
  along_play (fun w w' => w.past <:+ w'.past) played (fun _ => List.suffix_refl _)
    fun _ _ _ _ step later => step.suffix.trans later

/-- And a store that is whole in the end was so all the time. -/
theorem whole_of_play {cues : List (Cue ω)} (played : w.playInside cues = some w') :
    w'.store.isBroken = false → w.store.isBroken = false :=
  along_play (fun w w' => w'.store.isBroken = false → w.store.isBroken = false) played (fun _ => id)
    fun _ _ _ _ step earlier whole => step.whole (earlier whole)

/-- A store that stays whole while all cues are played is whole after the first, and stays so from there, since every
beginning of the rest is one of all with the first in front. -/
theorem StaysWhole.next {next : Crowd α ω β} {cue : Cue ω} {cues : List (Cue ω)} (stays : w.StaysWhole (cue :: cues))
    (followed : w.follow cue = some (move, next)) (inside : move.isInside = true) :
    next.store.isBroken = false ∧ next.StaysWhole cues := by
  constructor
  · refine stays [cue] ⟨cues, rfl⟩ next ?_
    rw [playInside_of_follow followed inside]
    rfl
  · rintro before ⟨after, rfl⟩ w' played
    refine stays (cue :: before) ⟨after, rfl⟩ w' ?_
    rw [playInside_of_follow followed inside]
    exact played

end Crowd

/-! Side by side. -/

/-- The whole course and the one of the first group alone, at some moment of both. -/
structure Alongside (errands : Nat → Errand τ) (first : Nat → Bool) (all : List (Note (Except Failure τ)))
    (w alone : Crowd α (Except Failure τ) β) : Prop where
  now : alone.now = w.now
  past : alone.past = w.past.filter (first ·.caller)
  callers : ∀ i, first i = true → alone.callers i = w.callers i
  sound : alone.store.Sound
  shown : ∀ i key, first i = true → (errands i).Touches i all key →
    alone.store.live? w.now key = w.store.live? w.now key

namespace Alongside

variable {errands : Nat → Errand τ} {first : Nat → Bool} {all : List (Note (Except Failure τ))}
  {w w' alone : Crowd α (Except Failure τ) β} {i : Nat} {g : Guard}

/-- A deed of the second group is one of the whole course only. It adds a note that is not the first group's, and at the
keys which that touches the store shows what it did. -/
theorem others (alongside : Alongside errands first all w alone) {deed : Deed (Except Failure τ)}
    {rest : Program (Except Failure τ) β} {store : Store α} (other : first i = false)
    (same : ∀ j key, first j = true → (errands j).Touches j all key → store.live? w.now key = w.store.live? w.now key) :
    Alongside errands first all (w.after i deed rest store) alone where
  now := alongside.now
  past := by
    rw [alongside.past]
    simp [Crowd.after, other]
  callers j mine := by
    have apart : j ≠ i := by
      rintro rfl
      rw [other] at mine
      cases mine
    rw [alongside.callers j mine]
    exact (Function.update_of_ne apart _ _).symm
  sound := alongside.sound
  shown j key mine touches := (alongside.shown j key mine touches).trans (same j key mine touches).symm

/-- A deed of the first group is one of both courses: the note is added to both, and the caller goes on alike in both. -/
theorem mine (alongside : Alongside errands first all w alone) {deed : Deed (Except Failure τ)}
    {rest : Program (Except Failure τ) β} {store store' : Store α} (belongs : first i = true) (sound : store'.Sound)
    (same : ∀ j key, first j = true → (errands j).Touches j all key → store'.live? w.now key = store.live? w.now key) :
    Alongside errands first all (w.after i deed rest store) (alone.after i deed rest store') where
  now := alongside.now
  past := by simp [Crowd.after, alongside.past, alongside.now, belongs]
  callers j mine := by
    by_cases it : j = i
    · subst it
      simp only [Crowd.after, Function.update_self]
    · exact (Function.update_of_ne it _ _).trans
        ((alongside.callers j mine).trans (Function.update_of_ne it _ _).symm)
  sound := sound
  shown := same

/-- A name that nobody has made up in the whole course is new to the other as well, for its notes are among those of the
whole. -/
theorem new_of_new (alongside : Alongside errands first all w alone) {name : String}
    (new : ¬ w.past.any (·.deed.isNamed name) = true) : ¬ alone.past.any (·.deed.isNamed name) = true := by
  intro used
  obtain ⟨note, noted, is⟩ := List.any_eq_true.mp used
  rw [alongside.past] at noted
  exact new (List.any_eq_true.mpr ⟨note, (List.mem_filter.mp noted).1, is⟩)

variable [TokenNumber α]

/-- A step that does not concern the first group shows it nothing. A call of the second group is at a key that the first
does not touch, and a purge drops only what does not show. -/
theorem skip {move : Move (Except Failure τ)} (alongside : Alongside errands first all w alone)
    (step : w.Step move w') (inside : move.isInside = true) (skipped : move.concerns first = false)
    (distinct : w.store.entries.Distinct) (apart : Apart errands first all) (more : w.past ⊆ all)
    (calls : ∀ i c deed, move = .own i deed → deed.doing = .calling c → (errands i).Calls g i w.past c) :
    Alongside errands first all w' alone := by
  -- A call of the second group is at a key that the first does not touch.
  have elsewhere {i : Nat} {c : Call} (other : first i = false) (made : (errands i).Calls g i w.past c) (j : Nat)
      (key : String) (mine : first j = true) (touches : (errands j).Touches j all key) :
      (w.store.perform w.now c).1.live? w.now key = w.store.live? w.now key := by
    obtain ⟨key', touched, touches'⟩ := made.touches
    refine (Store.perform_elsewhere w.now distinct ?_).2
    rw [touched]
    exact fun same => apart.touches mine other touches (touches'.mono more) (Option.some.inj same).symm
  cases step with
  | answered i held c next store reply ready performed =>
    refine alongside.others skipped fun j key mine touches => ?_
    have same := elsewhere skipped (calls i c _ rfl rfl) j key mine touches
    rwa [performed] at same
  | broke i held c next store why ready performed =>
    exact alongside.others skipped fun j key _ _ => Crowd.live?_of_broke performed key
  | failed i held c next why ready => exact alongside.others skipped fun _ _ _ _ => rfl
  | named i next name ready new => exact alongside.others skipped fun _ _ _ _ => rfl
  | worked i held next answer ready => exact alongside.others skipped fun _ _ _ _ => rfl
  | outside c => cases inside
  | purge =>
    refine { alongside with shown := fun j key mine touches => ?_ }
    rw [alongside.shown j key mine touches]
    exact ((Store.purge_live w.store w.now distinct).1 key).symm
  | wait later ahead => cases skipped

/-- A call of the first group is answered alike in both courses, as long as both stores stay whole, because one live
entry decides the call, and both show the same one. -/
theorem answered {held : Option Lease} {c : Call} {reply : c.Reply}
    {next : Except Failure c.Reply → Program (Except Failure τ) β} {store : Store α}
    (alongside : Alongside errands first all w alone) (belongs : first i = true)
    (distinct : w.store.entries.Distinct) (more : w.past ⊆ all) (made : (errands i).Calls g i w.past c)
    (ready : alone.callers i = .call held c next)
    (performed : w.store.perform w.now c = (store, .ok (.ok reply)))
    (fine : (∃ next, Store.later w.now alone.store.sweepInterval = .ok next) ∨
      (alone.store.perform w.now c).1.isBroken = false) :
    ∃ alone', alone.follow (.call i) = some (.own i (.called c (.ok reply)), alone') ∧
      Alongside errands first all (w.after i (.called c (.ok reply)) (next (.ok reply)) store) alone' ∧
      alone'.store.sweepInterval = alone.store.sweepInterval := by
  -- The entry at the call's key decides the call, and both courses show the same entry there.
  obtain ⟨key, touched, touches⟩ := made.touches
  obtain ⟨e, decided, here, elsewhere, -⟩ := Store.perform_answered touched distinct performed
  rw [← alongside.shown i key belongs (touches.mono more)] at decided
  obtain ⟨store', performed', sound, interval, here', elsewhere'⟩ :=
    Store.perform_decided_of_whole alongside.sound fine touched decided
  have shown (j : Nat) (key' : String) (mine : first j = true) (touches' : (errands j).Touches j all key') :
      store'.live? w.now key' = store.live? w.now key' := by
    by_cases it : key' = key
    · rw [it, here, here']
    · rw [elsewhere key' it, elsewhere' key' it]
      exact alongside.shown j key' mine touches'
  refine ⟨alone.after i _ _ store', ?_, alongside.mine belongs sound shown, interval⟩
  simp only [Crowd.follow, ready, alongside.now, performed']

/-- A cue for the first group leads to the same move in both courses, as long as the store stays whole: a name that is
new stays new, an answer is the same, and time passes for both. -/
theorem follow {move : Move (Except Failure τ)} {cue : Cue (Except Failure τ)}
    (alongside : Alongside errands first all w alone) (followed : w.follow cue = some (move, w'))
    (concerns : cue.concerns first = true) (distinct : w.store.entries.Distinct) (more : w.past ⊆ all)
    (whole : w'.store.isBroken = false)
    (calls : ∀ i c deed, move = .own i deed → deed.doing = .calling c → (errands i).Calls g i w.past c)
    (fine : (∃ next, Store.later w.now alone.store.sweepInterval = .ok next) ∨
      ∀ move' alone', alone.follow cue = some (move', alone') → alone'.store.isBroken = false) :
    ∃ alone', alone.follow cue = some (move, alone') ∧ Alongside errands first all w' alone' ∧
      alone'.store.sweepInterval = alone.store.sweepInterval := by
  cases cue with
  | call i =>
    cases ready : w.callers i with
    | call held c next =>
      have ready' : alone.callers i = .call held c next := (alongside.callers i concerns).trans ready
      obtain ⟨_, _, leads, left⟩ := Crowd.follow_call ready
      rw [followed] at leads
      cases leads
      obtain ⟨-, store, reply, performed, -⟩ := Store.answered_of_whole (left ▸ whole)
      simp only [Crowd.follow, ready, performed] at followed
      cases followed
      refine alongside.answered concerns distinct more (calls i c _ rfl rfl) ready' performed ?_
      refine fine.imp_right fun never => ?_
      obtain ⟨move', alone', leads, left⟩ := Crowd.follow_call ready'
      rw [← alongside.now, ← left]
      exact never move' alone' leads
    | _ =>
      simp only [Crowd.follow, ready] at followed
      cases followed
  | fail i why =>
    simp only [Crowd.follow] at followed
    split at followed
    · rename_i held c next ready
      cases followed
      refine ⟨alone.after i _ _ alone.store, ?_, alongside.mine concerns alongside.sound alongside.shown, rfl⟩
      simp only [Crowd.follow, (alongside.callers i concerns).trans ready]
    · cases followed
  | name i name =>
    simp only [Crowd.follow] at followed
    split at followed
    · rename_i next ready
      split at followed
      · cases followed
      · rename_i new
        cases followed
        refine ⟨alone.after i _ _ alone.store, ?_, alongside.mine concerns alongside.sound alongside.shown, rfl⟩
        simp only [Crowd.follow, (alongside.callers i concerns).trans ready, if_neg (alongside.new_of_new new)]
    · cases followed
  | work i answer =>
    simp only [Crowd.follow] at followed
    split at followed
    · rename_i held next ready
      cases followed
      refine ⟨alone.after i _ _ alone.store, ?_, alongside.mine concerns alongside.sound alongside.shown, rfl⟩
      simp only [Crowd.follow, (alongside.callers i concerns).trans ready]
    · cases followed
  | outside c => cases concerns
  | purge => cases concerns
  | wait nanos =>
    cases followed
    have ahead : w.now ≤ ⟨w.now.nanos + nanos⟩ := Nat.le_add_right _ _
    refine ⟨{ alone with now := ⟨w.now.nanos + nanos⟩ }, ?_, ?_, rfl⟩
    · simp only [Crowd.follow, alongside.now]
    · refine { alongside with now := rfl, shown := fun j key mine touches => ?_ }
      change alone.store.live? _ key = w.store.live? _ key
      rw [Store.live?_later _ ahead, Store.live?_later _ ahead, alongside.shown j key mine touches]

/-- Playing the whole course, and beside it the cues for the first group alone. The induction is on the cues: one that
concerns the first group is followed in both, and any other is left out. -/
theorem play {cues : List (Cue (Except Failure τ))} (alongside : Alongside errands first w'.past w alone)
    (played : w.playInside cues = some w') (whole : w'.store.isBroken = false)
    (apart : Apart errands first w'.past) (distinct : w.store.entries.Distinct)
    (safe : ∀ i, (onErrands g errands "").Safe i (fun _ _ => True) (w.callers i) (w.scene ""))
    (fine : (∃ next, Store.later w'.now alone.store.sweepInterval = .ok next) ∨
      alone.StaysWhole (cues.filter (·.concerns first))) :
    ∃ alone', alone.playInside (cues.filter (·.concerns first)) = some alone' ∧
      Alongside errands first w'.past w' alone' := by
  induction cues generalizing w alone with
  | nil =>
    cases played
    exact ⟨alone, rfl, alongside⟩
  | cons cue cues inductionHypothesis =>
    obtain ⟨move, next, followed, inside, onward⟩ := Crowd.playInside_cons played
    have step : w.Step move next := Crowd.step_of_follow followed
    have spares : move.Spares (recordKey "") := by
      cases move with
      | outside c => cases inside
      | _ => trivial
    have safe' := (Conduct.step_safe step spares distinct trivial safe).2
    have distinct' : next.store.entries.Distinct := (step.moves distinct "").2
    have more : w.past ⊆ w'.past := (Crowd.suffix_of_play played).subset
    have calls (i : Nat) (c : Call) (deed : Deed (Except Failure τ)) (is : move = .own i deed)
        (made : deed.doing = .calling c) : (errands i).Calls g i w.past c := by
      subst is
      have allowed : (onErrands g errands "").may i (w.scene "") deed.doing := (safe i).allowed trivial step
      rwa [made] at allowed
    cases concerns : cue.concerns first with
    | false =>
      have skipped : move.concerns first = false := (Crowd.concerns_of_follow followed).trans concerns
      rw [List.filter_cons_of_neg (by simp [concerns])] at fine ⊢
      exact inductionHypothesis (alongside.skip step inside skipped distinct apart more calls) onward distinct' safe' fine
    | true =>
      rw [List.filter_cons_of_pos (by simp [concerns])] at fine ⊢
      have fineNow : (∃ next, Store.later w.now alone.store.sweepInterval = .ok next) ∨
          ∀ move' alone', alone.follow cue = some (move', alone') → alone'.store.isBroken = false := by
        rcases fine with ⟨_, room⟩ | stays
        · exact .inl (Store.later_room (Crowd.ahead_of_play played) room)
        · exact .inr fun move' alone' leads => (stays.next leads
            (Move.inside_of_concerns ((Crowd.concerns_of_follow leads).trans concerns))).1
      obtain ⟨alone', leads, alongside', interval⟩ := alongside.follow followed concerns distinct more
        (Crowd.whole_of_play onward whole) calls fineNow
      rw [Crowd.playInside_of_follow leads inside]
      refine inductionHypothesis alongside' onward distinct' safe' ?_
      rw [interval]
      exact fine.imp_right fun stays => (stays.next leads inside).2

end Alongside

/-- Any course of callers on errands over one store in which the store does not break down, and two groups of callers
that share no key and no bucket: the cues for the first group and the time that passes lead, by themselves, to the same
notes of what the first group did and what answers it got, and leave each of its callers where the whole course left
it. The store does not break down without the second group either, unless its clock can not show the next sweep. -/
theorem tenants_do_not_interfere [TokenNumber α] {w w' : Crowd α (Except Failure τ) (Except Failure (Answer τ))}
    (g : Guard) (errands : Nat → Errand τ) (first : Nat → Bool)
    (callers : ∀ i, w.callers i = (errands i).program g) (distinct : w.store.entries.Distinct) (nobody : w.past = [])
    (cues : List (Cue (Except Failure τ))) (played : w.playInside cues = some w')
    (whole : w'.store.isBroken = false) (apart : Apart errands first w'.past)
    (calm : (∃ next, Store.later w'.now w.store.sweepInterval = .ok next) ∨
      w.StaysWhole (cues.filter (·.concerns first))) :
    ∃ alone, w.playInside (cues.filter (·.concerns first)) = some alone ∧ alone.now = w'.now ∧
      alone.past = w'.past.filter (first ·.caller) ∧ ∀ i, first i = true → alone.callers i = w'.callers i := by
  have start : Alongside errands first w'.past w w := {
    now := rfl
    past := by rw [nobody, List.filter_nil]
    callers := fun _ _ => rfl
    sound := ⟨Crowd.whole_of_play played whole, distinct⟩
    shown := fun _ _ _ _ => rfl }
  obtain ⟨alone, ran, alongside⟩ := start.play played whole apart distinct (errands_safe g errands callers) calm
  exact ⟨alone, ran, alongside.now, alongside.past, alongside.callers⟩

/-- One caller pays. The others chose texts that look like its bucket and its lock: the second makes a guarded call with
them, and the rest evict the key. -/
def lookalikes : Nat → Errand String
  | 0 => .pass (textVisit.passage "order-1")
  | 1 => .pass { textVisit.passage "_lock:order-1" with client := "10.0.0.1:apipayments:POST", path := "", method := "" }
  | _ => .evict "_lock:order-1"

/-- Texts that look like somebody else's bucket or lock are neither, as those have beginnings of their own. -/
theorem lookalikes_apart (past : List (Note (Except Failure String))) : Apart lookalikes (· == 0) past where
  keys i j key mine other about about' := by
    obtain rfl : i = 0 := eq_of_beq mine
    have real : key = "order-1" := about.is_given rfl
    have alike : key = "_lock:order-1" := by
      match j with
      | 0 => cases other
      | 1 => exact about'.is_given rfl
      | j + 2 => exact about'.is_given rfl
    exact absurd (real.symm.trans alike) (by decide)
  buckets i j bucket mine other here := by
    obtain rfl : i = 0 := eq_of_beq mine
    rw [← here]
    match j with
    | 0 => cases other
    | 1 => decide
    | j + 2 =>
      intro same
      cases same

/-- The second caller takes its lock and works while the first one does. The others evict its record before it gives the
lock back, and sweep before the first caller is done. -/
def besideLookalikes : List (Cue (Except Failure String)) :=
  [.call 1, .call 0, .call 1, .call 0, .call 1, .name 1 "b", .call 0, .call 1, .call 1, .work 1 (.ok "free"), .name 0 "a",
    .call 0, .purge, .wait 1000, .call 1, .call 0, .work 0 (.ok "paid"), .call 2, .call 0, .call 1, .wait 70000000000,
    .call 3, .wait 1000, .call 0]

/-- In that run the first caller pays, exactly as it does when it is alone, while the others work on lookalikes of its
keys. -/
theorem tenants_do_not_interfere_lookalikes :
    ∃ w' alone, (Crowd.atEmptyStore fun i => (lookalikes i).program briefGuard).playInside besideLookalikes = some w' ∧
      (Crowd.atEmptyStore fun i => (lookalikes i).program briefGuard).playInside
        (besideLookalikes.filter (·.concerns (· == 0))) = some alone ∧
      alone.past = w'.past.filter (·.caller == 0) ∧ w'.past.length = 20 ∧
      ((alone.callers 0).won? matches some (.guarded ⟨"paid", false, _⟩)) = true := by
  have played : ((Crowd.atEmptyStore fun i => (lookalikes i).program briefGuard).playInside besideLookalikes).map
      (fun w => (w.past.length, w.now.nanos, w.store.isBroken,
        ((w.callers 0).won? matches some (.guarded ⟨"paid", false, _⟩) : Bool))) =
      some (20, 70000002000, false, true) := by decide +kernel
  obtain ⟨w', is, shown⟩ := Option.map_eq_some_iff.mp played
  simp only [Prod.mk.injEq] at shown
  obtain ⟨length, time, whole, won⟩ := shown
  have room : Store.later w'.now (.ofSeconds 60) = .ok ⟨130000002000⟩ := by
    rw [show w'.now = ⟨70000002000⟩ from congrArg Moment.mk time]
    rfl
  obtain ⟨alone, ran, -, past, callers⟩ := tenants_do_not_interfere briefGuard lookalikes (· == 0) (fun _ => rfl)
    Table.distinct_empty rfl besideLookalikes is whole (lookalikes_apart _) (.inl ⟨_, room⟩)
  refine ⟨w', alone, is, ran, past, length, ?_⟩
  rw [callers 0 rfl]
  exact won

end Turnstile
