import Turnstile.Proofs.Lock.Fencing
import Turnstile.Proofs.Registry.Ledger

/-!
What the notes tell about the progress of a visitor: whether it holds the lock, whether its operation has given a
result, whether the record has one, and when it first looked.

Each of these is decided by the notes, and changes by few deeds. A claim ends by being given back, so a caller
who gives nothing back goes on holding. The record gets a result by one call. A caller whose first look was too
early stays early whatever comes.
-/

namespace Turnstile

variable {α ω τ : Type} {k : String} {i j : Nat} {past : List (Note ω)} {note : Note ω}

/-- A caller has an open claim on the lock. -/
def Holding (k : String) (i : Nat) (past : List (Note ω)) : Prop :=
  ∃ claim ∈ claims k past, claim.caller = i ∧ claim.isOpen k past = true

/-- A result has been written to the record. -/
def HasResult (k : String) (past : List (Note ω)) : Prop :=
  ∃ write ∈ writes k past, write.text ≠ Record.placeholder

instance (k : String) (past : List (Note ω)) : Decidable (HasResult k past) :=
  inferInstanceAs (Decidable (∃ write ∈ writes k past, _))

/-- A note of an operation that gave a result. -/
def Note.isWin (note : Note (Except Failure τ)) : Prop := ∃ result, note.deed = .worked (.ok result)

instance (note : Note (Except Failure τ)) : Decidable note.isWin :=
  match is : note.deed with
  | .worked (.ok result) => .isTrue ⟨result, is⟩
  | .worked (.error _) | .called _ _ | .broke _ _ | .named _ =>
    .isFalse fun ⟨_, other⟩ => by rw [is] at other; cases other

/-- A note of an operation that ran. -/
def Note.isWork (note : Note ω) : Prop := ∃ answer, note.deed = .worked answer

/-- A caller's operation has given a result. -/
def HasWon (i : Nat) (past : List (Note (Except Failure τ))) : Prop :=
  ∃ note ∈ past, note.caller = i ∧ note.isWin

instance (i : Nat) (past : List (Note (Except Failure τ))) : Decidable (HasWon i past) :=
  inferInstanceAs (Decidable (∃ note ∈ past, _))

/-- Whether a note is of a caller's look at the record. -/
def Note.isLook (k : String) (i : Nat) (note : Note ω) : Bool :=
  match note.deed with
  | .called (.get key) _ => note.caller = i && key = recordKey k
  | _ => false

/-- A caller has looked at the record. -/
def HasLooked (k : String) (i : Nat) (past : List (Note ω)) : Prop := ∃ note ∈ past, note.isLook k i = true

instance (k : String) (i : Nat) (past : List (Note ω)) : Decidable (HasLooked k i past) :=
  inferInstanceAs (Decidable (∃ note ∈ past, _))

/-- A caller's first look at the record came when it had a result. -/
def CameLate (k : String) (i : Nat) (past : List (Note ω)) : Prop :=
  ∃ later look earlier, past = later ++ look :: earlier ∧ look.isLook k i = true ∧ ¬ HasLooked k i earlier ∧
    HasResult k earlier

/-- A caller's first look at the record came when it had no result. -/
structure CameEarly (k : String) (i : Nat) (past : List (Note ω)) : Prop where
  looked : HasLooked k i past
  notLate : ¬ CameLate k i past

/-! Holding. -/

/-- A deed ends nobody's holding but the caller's own, and that only by giving the lock back. A token of somebody else's
claim can not be given back by the caller, for tokens are given back by their claimants. -/
theorem holding_own [TokenNumber α] {v v' : Scene α ω} {deed : Deed ω} (fenced : Fenced k v')
    (did : Scene.Own k i deed v v')
    (kept : j = i → ∀ token, (⟨i, v.now, deed⟩ : Note ω).gaveBack k token = false)
    (holding : Holding k j v.past) : Holding k j v'.past := by
  obtain ⟨claim, claimed, mine, isOpen⟩ := holding
  have still : claim ∈ claims k v'.past := Fenced.claims_mono did.more claimed
  refine ⟨claim, still, mine, ?_⟩
  rw [did.past, Fenced.isOpen_cons, isOpen, Bool.and_true, Bool.not_eq_true']
  cases gave : (⟨i, v.now, deed⟩ : Note ω).gaveBack k claim.token with
  | false => rfl
  | true =>
    have by' := fenced.claimant_of_back did.noted gave still rfl
    rw [kept (mine.symm.trans by') claim.token] at gave
    exact gave.symm

/-- A try that is granted is held: the claim is noted, and its token is new, so nobody has given it back. -/
theorem holding_of_granted [TokenNumber α] {v v' : Scene α ω} {token : String} {life : Span} (fenced : Fenced k v)
    (fresh : Fresh k i token v)
    (did : Scene.Own k i (.called (.setIfAbsent (lockKey k) token life) (.ok true)) v v') :
    Holding k i v'.past := by
  refine ⟨⟨i, v.now, token, life⟩, by simp [did.past, claims, Note.claim?], rfl, ?_⟩
  simpa [Claim.isOpen, did.past, Note.gaveBack] using fenced.notGiven_of_unused (fenced.unused_of_fresh fresh)

/-- Whoever gives a token back calls the store to remove it, and the store answers. -/
theorem removes_of_gaveBack {token : String} (gave : note.gaveBack k token = true) :
    ∃ reply, note.deed = .called (.deleteIfEquals (lockKey k) token) (.ok reply) := by
  unfold Note.gaveBack at gave
  split at gave
  · rename_i key given reply is
    simp only [Bool.and_eq_true, decide_eq_true_eq] at gave
    obtain ⟨rfl, rfl⟩ := gave
    exact ⟨reply, is⟩
  · cases gave

/-- A call at the record gives no lock back, for the lock has a key of its own. -/
theorem kept_of_record {c : Call} (touched : c.key? = some (recordKey k)) (reply : Except Failure c.Reply)
    (time : Moment) (token : String) : (⟨i, time, .called c reply⟩ : Note ω).gaveBack k token = false := by
  refine (Fenced.idle_of_elsewhere ?_ reply time).kept token
  rw [touched]
  exact fun same => recordKey_ne_lockKey k k (Option.some.inj same)

/-- A note that claims nothing, or is another caller's, gives a caller nothing to hold. What the caller holds now it had
claimed before, and not given back. -/
theorem holding_of_cons (not : note.claim? k = none ∨ note.caller ≠ i) (holding : Holding k i (note :: past)) :
    Holding k i past := by
  obtain ⟨claim, claimed, mine, isOpen⟩ := holding
  refine ⟨claim, ?_, mine, ?_⟩
  · obtain ⟨other, noted, is⟩ := List.mem_filterMap.mp claimed
    rcases List.mem_cons.mp noted with new | old
    · subst new
      rcases not with unclaimed | another
      · rw [unclaimed] at is
        cases is
      · exact absurd ((Fenced.caller_of_claim is).symm.trans mine) another
    · exact List.mem_filterMap.mpr ⟨other, old, is⟩
  · rw [Fenced.isOpen_cons, Bool.and_eq_true] at isOpen
    exact isOpen.2

/-- At most one caller holds the lock, as long as all open claims are running, because only one open claim is. -/
theorem holder_unique {v : Scene α ω} (fenced : Fenced k v) (inTime : InTime k v) (mine : Holding k i v.past)
    (other : Holding k j v.past) : i = j := by
  obtain ⟨claim, claimed, is, isOpen⟩ := mine
  obtain ⟨claim', claimed', is', isOpen'⟩ := other
  have same := fenced.running_unique claimed claimed' isOpen isOpen' (inTime claim claimed isOpen)
    (inTime claim' claimed' isOpen')
  rw [← is, ← is', same]

/-! Results in the record. -/

/-- A record that has a result keeps it, as what was written stays in the ledger. -/
theorem hasResult_mono {past past' : List (Note ω)} (more : past ⊆ past') (result : HasResult k past) :
    HasResult k past' := by
  obtain ⟨write, written, is⟩ := result
  exact ⟨write, Ledger.mem_mono more written, is⟩

/-- A note that writes no result brings none; a placeholder is written at most. -/
theorem hasResult_of_cons (none : ∀ write, note.write? k = some write → write.text = Record.placeholder)
    (result : HasResult k (note :: past)) : HasResult k past := by
  obtain ⟨write, written, is⟩ := result
  obtain ⟨other, noted, told⟩ := List.mem_filterMap.mp written
  rcases List.mem_cons.mp noted with new | old
  · exact absurd (none write (new ▸ told)) is
  · exact ⟨write, List.mem_filterMap.mpr ⟨other, old, told⟩, is⟩

/-! Operations. -/

/-- A note that is not of the caller's success lets it succeed no more than it had. -/
theorem hasWon_of_cons {past : List (Note (Except Failure τ))} {note : Note (Except Failure τ)}
    (not : note.caller = i → ¬ note.isWin) (won : HasWon i (note :: past)) : HasWon i past := by
  obtain ⟨other, noted, mine, win⟩ := won
  rcases List.mem_cons.mp noted with new | old
  · exact absurd win (new ▸ not (new ▸ mine))
  · exact ⟨other, old, mine, win⟩

/-- No deed but an operation that gives a result lets anybody succeed, for that is what a success is. -/
theorem hasWon_of_own [TokenNumber α] {v v' : Scene α (Except Failure τ)} {deed : Deed (Except Failure τ)}
    (did : Scene.Own k i deed v v') (not : ∀ result, deed ≠ .worked (.ok result)) (won : HasWon j v'.past) :
    HasWon j v.past := by
  rw [did.past] at won
  exact hasWon_of_cons (fun _ ⟨result, is⟩ => not result is) won

/-- Who has succeeded has stored the result or goes on holding the lock, if the operation is run under the lock and
nobody gives it back between success and storing. -/
theorem won_own [TokenNumber α] {v v' : Scene α (Except Failure τ)} {deed : Deed (Except Failure τ)}
    (fenced : Fenced k v') (did : Scene.Own k i deed v v')
    (working : deed.doing = .working → Holding k i v.past)
    (leaving : ∀ token, deed.doing = .calling (.deleteIfEquals (lockKey k) token) → HasWon i v.past →
      HasResult k v.past)
    (won : ∀ j, HasWon j v.past → HasResult k v.past ∨ Holding k j v.past) :
    ∀ j, HasWon j v'.past → HasResult k v'.past ∨ Holding k j v'.past := by
  intro j wins
  by_cases mine : j = i ∧ (⟨i, v.now, deed⟩ : Note (Except Failure τ)).isWin
  · obtain ⟨rfl, result, is⟩ := mine
    have is : deed = .worked (.ok result) := is
    exact .inr (holding_own fenced did (fun _ _ => by rw [is]; rfl) (working (by rw [is]; rfl)))
  · have before : HasWon j v.past := by
      rw [did.past] at wins
      exact hasWon_of_cons (fun about win => mine ⟨about.symm, win⟩) wins
    rcases won j before with result | holding
    · exact .inl (hasResult_mono did.more result)
    · by_cases leaves : j = i ∧ ∃ token, (⟨i, v.now, deed⟩ : Note (Except Failure τ)).gaveBack k token = true
      · obtain ⟨rfl, token, gave⟩ := leaves
        obtain ⟨reply, is⟩ := removes_of_gaveBack gave
        have is : deed = .called (.deleteIfEquals (lockKey k) token) (.ok reply) := is
        exact .inl (hasResult_mono did.more (leaving token (by rw [is]; rfl) before))
      · refine .inr (holding_own fenced did (fun same token => ?_) holding)
        exact Bool.eq_false_iff.mpr fun gave => leaves ⟨same, token, gave⟩

/-- Nothing runs after a success, if whoever runs the operation knows that nobody has succeeded. The new note is the
last, so only what stands before it has to be looked at. -/
theorem order_own [TokenNumber α] {v v' : Scene α (Except Failure τ)} {deed : Deed (Except Failure τ)}
    (did : Scene.Own k i deed v v') (working : deed.doing = .working → ∀ j, ¬ HasWon j v.past)
    (order : v.past.Pairwise fun later earlier => later.isWork → ¬ earlier.isWin) :
    v'.past.Pairwise fun later earlier => later.isWork → ¬ earlier.isWin := by
  rw [did.past]
  refine List.pairwise_cons.mpr ⟨fun earlier noted work win => ?_, order⟩
  obtain ⟨answer, is⟩ := work
  have is : deed = .worked answer := is
  exact working (by rw [is]; rfl) earlier.caller ⟨earlier, noted, rfl, win⟩

/-! Looks. -/

/-- A caller that has looked has looked, whatever is noted besides. -/
theorem hasLooked_mono {past past' : List (Note ω)} (more : past ⊆ past') (looked : HasLooked k i past) :
    HasLooked k i past' := by
  obtain ⟨note, noted, is⟩ := looked
  exact ⟨note, more noted, is⟩

/-- A note that is no look of the caller's does not make it look. -/
theorem hasLooked_of_cons (not : note.isLook k i = false) (looked : HasLooked k i (note :: past)) :
    HasLooked k i past := by
  obtain ⟨other, noted, is⟩ := looked
  rcases List.mem_cons.mp noted with new | old
  · rw [new, not] at is
    cases is
  · exact ⟨other, old, is⟩

/-- A look is noted with the caller whose look it is. -/
theorem caller_of_isLook (look : note.isLook k i = true) : note.caller = i := by
  unfold Note.isLook at look
  split at look
  · exact of_decide_eq_true (Bool.and_eq_true _ _ ▸ look).1
  · cases look

/-- A call at another key is no look at the record. Only a call that asks for a text can be one, and then its key is
compared. -/
theorem unlooked_of_elsewhere {c : Call} (elsewhere : c.key? ≠ some (recordKey k)) (reply : Except Failure c.Reply)
    (time : Moment) : (⟨j, time, .called c reply⟩ : Note ω).isLook k i = false := by
  cases c with
  | get key =>
    have other : key ≠ recordKey k := fun same => elsewhere (congrArg some same)
    simp [Note.isLook, other]
  | _ => rfl

/-- A deed that is no look leaves a caller that has not looked without a look. -/
theorem unlooked_own [TokenNumber α] {v v' : Scene α ω} {deed : Deed ω} (did : Scene.Own k j deed v v')
    (not : (⟨j, v.now, deed⟩ : Note ω).isLook k i = false) (unlooked : ¬ HasLooked k i v.past) :
    ¬ HasLooked k i v'.past := by
  intro looked
  rw [did.past] at looked
  exact unlooked (hasLooked_of_cons not looked)

/-- Who came late looked: being late is told by one's first look. -/
theorem hasLooked_of_late (late : CameLate k i past) : HasLooked k i past := by
  obtain ⟨later, look, earlier, is, looks, _⟩ := late
  exact ⟨look, by rw [is]; exact List.mem_append_right _ List.mem_cons_self, looks⟩

/-- A caller comes late by its first look, or it came late before. If the new note is not the look in question, that
look stands among the earlier notes with all that was before it. -/
theorem late_cons : CameLate k i (note :: past) ↔
    CameLate k i past ∨ (note.isLook k i = true ∧ ¬ HasLooked k i past ∧ HasResult k past) := by
  constructor
  · rintro ⟨later, look, earlier, is, looks, first, result⟩
    cases later with
    | nil =>
      obtain ⟨rfl, rfl⟩ := List.cons.inj is
      exact .inr ⟨looks, first, result⟩
    | cons other later =>
      obtain ⟨_, same⟩ := List.cons.inj is
      exact .inl ⟨later, look, earlier, same, looks, first, result⟩
  · rintro (⟨later, look, earlier, is, told⟩ | told)
    · exact ⟨note :: later, look, earlier, by rw [is, List.cons_append], told⟩
    · exact ⟨[], note, past, rfl, told⟩

instance decidableCameLate (k : String) (i : Nat) : (past : List (Note ω)) → Decidable (CameLate k i past)
  | [] => .isFalse fun ⟨later, _, _, is, _⟩ => by cases later <;> cases is
  | note :: past =>
    have := decidableCameLate k i past
    decidable_of_iff (CameLate k i past ∨ (note.isLook k i = true ∧ ¬ HasLooked k i past ∧ HasResult k past))
      late_cons.symm

/-- Who came early stays early: a caller that has looked once can not become late by another note. -/
theorem early_cons (early : CameEarly k i past) : CameEarly k i (note :: past) := by
  have notLate : ¬ CameLate k i (note :: past) := by
    intro late
    rcases late_cons.mp late with before | ⟨_, first, _⟩
    · exact early.notLate before
    · exact first early.looked
  exact { looked := hasLooked_mono (List.subset_cons_self _ _) early.looked, notLate := notLate }

/-- And so it does however much is noted, one note after the other. -/
theorem early_suffix {past past' : List (Note ω)} (more : past <:+ past') (early : CameEarly k i past) :
    CameEarly k i past' := by
  obtain ⟨news, rfl⟩ := more
  induction news with
  | nil => exact early
  | cons note news inductionHypothesis => exact early_cons inductionHypothesis

/-- Who has not looked, and looks when the record has no result, comes early: to be late it would have had to find a
result at that look. -/
theorem early_of_look (look : note.isLook k i = true) (notLate : ¬ CameLate k i past) (none : ¬ HasResult k past) :
    CameEarly k i (note :: past) := by
  refine ⟨⟨note, List.mem_cons_self, look⟩, fun late => ?_⟩
  rcases late_cons.mp late with before | ⟨_, _, result⟩
  · exact notLate before
  · exact none result

/-- Others' notes make nobody late, for none of them is a look of the caller's. -/
theorem late_before {v v' : Scene α ω} (moved : v.Onward i v') (late : CameLate k i v'.past) :
    CameLate k i v.past := by
  obtain ⟨news, after, others⟩ := moved.past
  rw [after] at late
  clear after
  induction news with
  | nil => exact late
  | cons note news inductionHypothesis =>
    rcases late_cons.mp late with before | ⟨look, _⟩
    · exact inductionHypothesis before fun other new => others other (List.mem_cons_of_mem _ new)
    · exact absurd (caller_of_isLook look) (others note List.mem_cons_self)

/-- Others' notes tell of no look of the caller's. -/
theorem hasLooked_before {v v' : Scene α ω} (moved : v.Onward i v') (looked : HasLooked k i v'.past) :
    HasLooked k i v.past := by
  obtain ⟨note, noted, is⟩ := looked
  exact ⟨note, moved.mine noted (caller_of_isLook is), is⟩

/-- Nor do they tell of a success of its own. -/
theorem hasWon_before {v v' : Scene α (Except Failure τ)} (moved : v.Onward i v') (won : HasWon i v'.past) :
    HasWon i v.past := by
  obtain ⟨note, noted, mine, win⟩ := won
  exact ⟨note, moved.mine noted mine, mine, win⟩

/-- Nor of a claim of its own, so what a caller holds after others have moved it held before. -/
theorem holding_before {v v' : Scene α ω} (moved : v.Onward i v') (holding : Holding k i v'.past) :
    Holding k i v.past := by
  obtain ⟨news, after, others⟩ := moved.past
  rw [after] at holding
  clear after
  induction news with
  | nil => exact holding
  | cons note news inductionHypothesis =>
    exact inductionHypothesis (holding_of_cons (.inr (others note List.mem_cons_self)) holding)
      fun other new => others other (List.mem_cons_of_mem _ new)

end Turnstile
