import Turnstile.Proofs.Crowd

/-!
Playing a crowd.

A list of cues says who moves next, and supplies what the store does not: names, answers of the wrapped
operation, failures, and the time. Playing computes where the cues lead, and checks each move on the way. What
has been played is a course.
-/

namespace Turnstile

/-- Who moves next, and with what. -/
inductive Cue (ω : Type) where
  /-- A caller makes its call and the store answers. -/
  | call (i : Nat)
  | fail (i : Nat) (why : Failure)
  | name (i : Nat) (name : String)
  | work (i : Nat) (answer : ω)
  | outside (c : Call)
  | purge
  | wait (nanos : Nat)

/-- Whether a deed made a name up. -/
def Deed.isNamed {ω : Type} (name : String) : Deed ω → Bool
  | .named other => other = name
  | _ => false

/-- The result of a program that has won. -/
def Program.won? {ω β : Type} : Program ω (Except Failure β) → Option β
  | .done (.ok b) => some b
  | _ => none

/-- A program with a result that it has won is over, with that result. -/
theorem Program.done_of_won {ω β : Type} {p : Program ω (Except Failure β)} {b : β} (won : p.won? = some b) :
    p = .done (.ok b) := by
  unfold won? at won
  split at won
  · cases won
    rfl
  · cases won

/-- The failure of a program that has lost. -/
def Program.lost? {ω β : Type} : Program ω (Except Failure β) → Option Failure
  | .done (.error why) => some why
  | _ => none

/-- A program with a failure that it has lost by is over, with that failure. -/
theorem Program.done_of_lost {ω β : Type} {p : Program ω (Except Failure β)} {why : Failure}
    (lost : p.lost? = some why) : p = .done (.error why) := by
  unfold lost? at lost
  split at lost
  · cases lost
    rfl
  · cases lost

/-- Why a program has broken down. -/
def Program.broken? {ω β : Type} : Program ω β → Option Breakdown
  | .broken _ why => some why
  | _ => none

namespace Crowd

variable {α ω β : Type} [TokenNumber α]

/-- The move that a cue asks for, if it can be made. -/
def follow (w : Crowd α ω β) : Cue ω → Option (Move ω × Crowd α ω β)
  | .call i =>
    match w.callers i with
    | .call held c next =>
      match w.store.perform w.now c with
      | (store, .ok reply) => some (.own i (.called c reply), w.after i (.called c reply) (next reply) store)
      | (store, .error why) => some (.own i (.broke c why), w.after i (.broke c why) (.broken held why) store)
    | _ => none
  | .fail i why =>
    match w.callers i with
    | .call _ c next =>
      some (.own i (.called c (.error why)), w.after i (.called c (.error why)) (next (.error why)) w.store)
    | _ => none
  | .name i name =>
    match w.callers i with
    | .fresh next =>
      if w.past.any (·.deed.isNamed name) then none
      else some (.own i (.named name), w.after i (.named name) (next name) w.store)
    | _ => none
  | .work i answer =>
    match w.callers i with
    | .work _ next => some (.own i (.worked answer), w.after i (.worked answer) (next answer) w.store)
    | _ => none
  | .outside c => some (.outside c, { w with store := (w.store.perform w.now c).1 })
  | .purge => some (.purge, { w with store := (w.store.purge w.now).1 })
  | .wait nanos =>
    let later : Moment := ⟨w.now.nanos + nanos⟩
    some (.wait later, { w with now := later })

/-- Follows cues as far as every move passes a check. -/
def play (k : String) (check : Move ω → Scene α ω → Scene α ω → Bool) :
    List (Cue ω) → Crowd α ω β → Option (Crowd α ω β)
  | [], w => some w
  | cue :: cues, w =>
    match w.follow cue with
    | some (move, w') => if check move (w.scene k) (w'.scene k) then play k check cues w' else none
    | none => none

/-- What a cue leads to is a step. The cue names the mover and supplies what the store does not, and all conditions of
the step have been checked. -/
theorem step_of_follow {w w' : Crowd α ω β} {cue : Cue ω} {move : Move ω}
    (followed : w.follow cue = some (move, w')) : w.Step move w' := by
  cases cue with
  | call i =>
    simp only [follow] at followed
    split at followed
    · rename_i held c next ready
      split at followed
      · rename_i store reply performed
        cases followed
        exact .answered i held c next store reply ready performed
      · rename_i store why performed
        cases followed
        exact .broke i held c next store why ready performed
    · cases followed
  | fail i why =>
    simp only [follow] at followed
    split at followed
    · rename_i held c next ready
      cases followed
      exact .failed i held c next why ready
    · cases followed
  | name i name =>
    simp only [follow] at followed
    split at followed
    · rename_i next ready
      split at followed
      · cases followed
      · rename_i unused
        cases followed
        refine .named i next name ready fun note noted is => unused ?_
        exact List.any_eq_true.mpr ⟨note, noted, by simp [is, Deed.isNamed]⟩
    · cases followed
  | work i answer =>
    simp only [follow] at followed
    split at followed
    · rename_i held next ready
      cases followed
      exact .worked i held next answer ready
    · cases followed
  | outside c => cases followed; exact .outside c
  | purge => cases followed; exact .purge
  | wait nanos => cases followed; exact .wait _ (Nat.le_add_right _ _)

/-- The operations that have answered are those that had answered before, and the one whose answer the cue supplies. -/
theorem worked_of_follow {w w' : Crowd α ω β} {cue : Cue ω} {move : Move ω} (followed : w.follow cue = some (move, w'))
    {i : Nat} {answer : ω} : (∃ time, ⟨i, time, .worked answer⟩ ∈ w'.past) ↔
      (∃ time, ⟨i, time, .worked answer⟩ ∈ w.past) ∨ cue = .work i answer := by
  have other {w : Crowd α ω β} {deed : Deed ω} {j : Nat} {rest : Program ω β} {store : Store α}
      (idle : ∀ answer, deed ≠ .worked answer) : (∃ time, ⟨i, time, .worked answer⟩ ∈ (w.after j deed rest store).past) ↔
        (∃ time, ⟨i, time, .worked answer⟩ ∈ w.past) := by
    simp [after, Ne.symm (idle answer)]
  cases cue with
  | call j =>
    simp only [follow] at followed
    split at followed
    · split at followed <;> cases followed <;> exact (other (by simp)).trans (or_iff_left (by simp)).symm
    · cases followed
  | fail j why =>
    simp only [follow] at followed
    split at followed
    · cases followed
      exact (other (by simp)).trans (or_iff_left (by simp)).symm
    · cases followed
  | name j name =>
    simp only [follow] at followed
    split at followed
    · split at followed <;> cases followed
      exact (other (by simp)).trans (or_iff_left (by simp)).symm
    · cases followed
  | work j given =>
    simp only [follow] at followed
    split at followed
    · cases followed
      constructor
      · rintro ⟨time, noted⟩
        rcases List.mem_cons.mp noted with is | old
        · cases is
          exact .inr rfl
        · exact .inl ⟨time, old⟩
      · rintro (⟨time, old⟩ | is)
        · exact ⟨time, List.mem_cons_of_mem _ old⟩
        · cases is
          exact ⟨w.now, List.mem_cons_self⟩
    · cases followed
  | outside c => cases followed; simp
  | purge => cases followed; simp
  | wait nanos => cases followed; simp

/-- After a play the operations that have answered are those of the cues, beside the ones that had answered before. -/
theorem worked_of_play {k : String} {check : Move ω → Scene α ω → Scene α ω → Bool} {cues : List (Cue ω)}
    {w w' : Crowd α ω β} (played : w.play k check cues = some w') {i : Nat} {answer : ω} :
    (∃ time, ⟨i, time, .worked answer⟩ ∈ w'.past) ↔
      (∃ time, ⟨i, time, .worked answer⟩ ∈ w.past) ∨ .work i answer ∈ cues := by
  induction cues generalizing w with
  | nil => cases played; simp
  | cons cue cues inductionHypothesis =>
    simp only [play] at played
    split at played
    · rename_i move next followed
      split at played
      · rw [inductionHypothesis played, worked_of_follow followed, List.mem_cons, or_assoc, eq_comm]
      · cases played
    · cases played

/-- Two courses, the second from where the first has led, are one. -/
theorem Course.trans {k : String} {fair : Move ω → Scene α ω → Scene α ω → Prop} {w w' w'' : Crowd α ω β}
    (first : Course k fair w w') (second : Course k fair w' w'') : Course k fair w w'' := by
  induction second with
  | start => exact first
  | step _ step kept inductionHypothesis => exact .step inductionHypothesis step kept

/-- What has been played is a fair course, when the check lets nothing else pass. -/
theorem course_of_play {k : String} {check : Move ω → Scene α ω → Scene α ω → Bool}
    {fair : Move ω → Scene α ω → Scene α ω → Prop}
    (sound : ∀ move v v', check move v v' = true → fair move v v')
    {cues : List (Cue ω)} {w w' : Crowd α ω β}
    (played : w.play k check cues = some w') : Course k fair w w' := by
  induction cues generalizing w with
  | nil => cases played; exact .start _
  | cons cue cues inductionHypothesis =>
    simp only [play] at played
    split at played
    · rename_i move next followed
      split at played
      · rename_i passed
        have first : Course k fair w next := .step (.start w) (step_of_follow followed) (sound _ _ _ passed)
        exact first.trans (inductionHypothesis played)
      · cases played
    · cases played

/-- Callers who come to an empty store. -/
def atEmptyStore (callers : Nat → Program ω β) : Crowd Binary64 ω β where
  now := ⟨0⟩
  store := { entries := .empty, nextSweep := ⟨60000000000⟩, sweepInterval := .ofSeconds 60, isBroken := false }
  callers
  past := []

end Crowd

end Turnstile
