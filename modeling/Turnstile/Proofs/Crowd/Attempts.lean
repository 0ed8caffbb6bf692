import Turnstile.Proofs.Crowd.Conduct

/-!
Rules of conduct for attempts.

An attempt is a program that may fail, so it meets two postconditions: one of the result when it wins, one of
the failure when it loses. There is one rule for each way of making an attempt. A rule for a single step asks
what a caller may do at its turn and what holds right after it; the rules for putting attempts together ask
for no more than the parts do.
-/

namespace Turnstile

namespace Conduct

variable {α ω β γ : Type} [TokenNumber α] {d : Conduct α ω} {i : Nat}

/-- One condition for results and one for failures. -/
def either (won : Scene α ω → β → Prop) (lost : Scene α ω → Failure → Prop) (v : Scene α ω) :
    Except Failure β → Prop
  | .ok a => won v a
  | .error why => lost v why

/-- An attempt that does only what its caller may do; its result or its failure stays as required. -/
def Meets (d : Conduct α ω) (i : Nat) (won : Scene α ω → β → Prop) (lost : Scene α ω → Failure → Prop)
    (p : Attempt ω β) (v : Scene α ω) : Prop :=
  d.Safe i (either won lost) p.run v

/-- Whenever the caller's turn comes it may make a call, and whatever the reply, things are right after it. -/
abbrev Asks (d : Conduct α ω) (i : Nat) (v : Scene α ω) (c : Call)
    (next : Except Failure c.Reply → Scene α ω → Prop) : Prop :=
  d.Turn i v (.calling c) (.called c) next

/-- A condition that other callers' moves do not end. -/
def Lasting (d : Conduct α ω) (i : Nat) (holds : Scene α ω → Prop) : Prop :=
  ∀ v v', d.rely i v v' → d.inv v' → holds v → holds v'

/-- A condition that lasts and holds now holds from here on. -/
theorem Lasting.henceforth {holds : Scene α ω → Prop} {v : Scene α ω} (lasting : d.Lasting i holds)
    (now : holds v) : d.Henceforth i v holds :=
  fun v' moved invariant => lasting v v' moved invariant now

/-- A condition on the notes that more notes do not end lasts, for whatever others do, their notes only come on top. -/
theorem lasting_of_past {holds : List (Note ω) → Prop}
    (more : ∀ past past', past <:+ past' → holds past → holds past') : d.Lasting i fun v => holds v.past :=
  fun v v' moved _ => more v.past v'.past (d.onward i v v' moved).suffix

/-- What the notes tell at the beginning of a program they tell at its end, as neither the program nor the others strike
any out. -/
theorem Safe.remember {post : Scene α ω → β → Prop} {holds : List (Note ω) → Prop} {p : Program ω β}
    {v : Scene α ω} (more : ∀ past past', past <:+ past' → holds past → holds past') (safe : d.Safe i post p v)
    (now : holds v.past) : d.Safe i (fun v a => post v a ∧ holds v.past) p v := by
  have turns {ρ : Type} {v : Scene α ω} {doing : Doing} {deed : ρ → Deed ω}
      {next next' : ρ → Scene α ω → Prop} (turn : d.Turn i v doing deed next) (now : holds v.past)
      (implies : ∀ answer v, next answer v → holds v.past → next' answer v) : d.Turn i v doing deed next' := by
    intro v' moved invariant
    obtain ⟨allowed, onward⟩ := turn v' moved invariant
    refine ⟨allowed, fun answer v'' did fair kept => implies answer v'' (onward answer v'' did fair kept) ?_⟩
    exact more _ _ ((d.onward i v v' moved).suffix.trans did.suffix) now
  induction p generalizing v with
  | done a => exact fun v' moved invariant => ⟨safe v' moved invariant, lasting_of_past more v v' moved invariant now⟩
  | broken held why => exact safe
  | call held c next inductionHypothesis => exact turns safe now fun reply _ => inductionHypothesis reply
  | fresh next inductionHypothesis => exact turns safe now fun name _ => inductionHypothesis name
  | work held next inductionHypothesis => exact turns safe now fun answer _ => inductionHypothesis answer

/-- What a safe program ends with stays as required while others move. Safety asks this of every end, so it may be
carried to whatever follows the program. -/
theorem Safe.settled {post : Scene α ω → β → Prop} {p : Program ω β} {v : Scene α ω}
    (safe : d.Safe i post p v) : d.Safe i (fun v a => d.Henceforth i v (post · a)) p v := by
  induction p generalizing v with
  | done a => exact fun v' moved _ => Henceforth.later safe moved
  | broken held why => exact safe
  | call held c next inductionHypothesis => exact Turn.mono safe fun reply _ => inductionHypothesis reply
  | fresh next inductionHypothesis => exact Turn.mono safe fun name _ => inductionHypothesis name
  | work held next inductionHypothesis => exact Turn.mono safe fun answer _ => inductionHypothesis answer

section

variable {won : Scene α ω → β → Prop} {lost : Scene α ω → Failure → Prop} {v : Scene α ω}

/-- To return a result meets what holds of that result from here on. -/
theorem meets_pure {a : β} (holds : d.Henceforth i v (won · a)) : d.Meets i won lost (pure a) v := holds

/-- To fail meets what holds of that failure from here on. -/
theorem meets_throw {why : Failure} (holds : d.Henceforth i v (lost · why)) :
    d.Meets i won lost (throw why) v := holds

/-- To pass on a result or a failure meets what holds of it from here on. -/
theorem meets_ofResult {result : Except Failure β} (holds : d.Henceforth i v (either won lost · result)) :
    d.Meets i won lost (Attempt.ofResult result) v := holds

/-- A call whose reply is the result: the call has to be allowed at the caller's turn, and its reply to be as required. -/
theorem meets_ask {c : Call} {won : Scene α ω → c.Reply → Prop}
    (turn : d.Asks i v c fun reply v => d.Henceforth i v (either won lost · reply)) :
    d.Meets i won lost (Attempt.ask c) v := turn

/-- A call whose failure is a result as well, so only what is won has to be as required. -/
theorem meets_probe {c : Call} {won : Scene α ω → Except Failure c.Reply → Prop}
    (turn : d.Asks i v c fun reply v => d.Henceforth i v (won · reply)) :
    d.Meets i won lost (Attempt.probe c) v := turn

/-- To make up a name meets what holds of whichever name comes out. -/
theorem meets_freshName {won : Scene α ω → String → Prop}
    (turn : d.Turn i v .naming .named fun name v => d.Henceforth i v (won · name)) :
    d.Meets i won lost Attempt.freshName v := turn

/-- An attempt meets weaker postconditions, too, and the invariant may be used to weaken them. -/
theorem Meets.weaken {p : Attempt ω β} {won' : Scene α ω → β → Prop} {lost' : Scene α ω → Failure → Prop}
    (meets : d.Meets i won lost p v) (winning : ∀ v a, d.inv v → won v a → won' v a)
    (losing : ∀ v why, d.inv v → lost v why → lost' v why) : d.Meets i won' lost' p v := by
  refine Safe.weaken meets ?_
  intro v answer invariant holds
  cases answer with
  | ok a => exact winning v a invariant holds
  | error why => exact losing v why invariant holds

/-- What the notes tell before an attempt they tell after it, whether it is won or lost. -/
theorem Meets.remember {p : Attempt ω β} {holds : List (Note ω) → Prop} (meets : d.Meets i won lost p v)
    (more : ∀ past past', past <:+ past' → holds past → holds past') (now : holds v.past) :
    d.Meets i (fun v a => won v a ∧ holds v.past) (fun v why => lost v why ∧ holds v.past) p v := by
  refine Safe.weaken (Safe.remember more meets now) ?_
  intro v answer _ told
  cases answer <;> exact told

/-- One attempt after another. A failure of the first ends both, so it has to be as required of both; and its result has
to be where the second one meets what is required. -/
theorem Meets.bind {won : Scene α ω → γ → Prop} {p : Attempt ω β} {f : β → Attempt ω γ}
    (meets : d.Meets i (fun v a => d.Meets i won lost (f a) v) lost p v) :
    d.Meets i won lost (p >>= f) v := by
  refine Safe.bind (Safe.weaken meets.settled ?_)
  intro v answer invariant holds
  cases answer with
  | ok a => exact Henceforth.here holds invariant
  | error why => exact holds

/-- A result that is only rewritten has to be as required after that. -/
theorem Meets.map {won : Scene α ω → γ → Prop} {p : Attempt ω β} (f : β → γ)
    (meets : d.Meets i (fun v a => won v (f a)) lost p v) : d.Meets i won lost (p >>= fun a => pure (f a)) v := by
  refine Safe.bind (Safe.weaken meets.settled ?_)
  intro v answer _ holds
  cases answer with
  | ok a => exact holds
  | error why => exact holds

/-- A failure that is caught is a result, so both ends of the attempt have to be as required of results. -/
theorem Meets.caught {won : Scene α ω → Except Failure β → Prop} {p : Attempt ω β}
    (meets : d.Meets i (fun v a => won v (.ok a)) (fun v why => won v (.error why)) p v) :
    d.Meets i won lost p.caught v := by
  refine Safe.bind (Safe.weaken meets.settled ?_)
  intro v answer invariant holds
  cases answer with
  | ok a => exact holds
  | error why => exact holds

/-- Telling the lease that is held changes nothing of what an attempt does, so it meets what it met. -/
theorem Meets.holding {p : Attempt ω β} (lease : Lease) (meets : d.Meets i won lost p v) :
    d.Meets i won lost (p.holding lease) v :=
  Safe.holding lease meets

end

/-- The wrapped operation wins or loses by its answer. It has to be allowed to run at the caller's turn. -/
theorem meets_work {τ : Type} {d : Conduct α (Except Failure τ)} {won : Scene α (Except Failure τ) → τ → Prop}
    {lost : Scene α (Except Failure τ) → Failure → Prop} {v : Scene α (Except Failure τ)}
    (turn : d.Turn i v .working .worked fun answer v => d.Henceforth i v (either won lost · answer)) :
    d.Meets i won lost Attempt.work v := turn

/-- A result that may be a breakdown: then the caller has to be allowed to break down. -/
theorem meets_ofBreakdown {won : Scene α ω → β → Prop} {lost : Scene α ω → Failure → Prop} {v : Scene α ω}
    {outcome : Except Breakdown β} (breaks : d.Henceforth i v fun v => d.may i v .breaking)
    (holds : ∀ a, d.Henceforth i v (won · a)) : d.Meets i won lost (Attempt.ofBreakdown outcome) v := by
  cases outcome with
  | ok a => exact holds a
  | error why => exact breaks

end Conduct

end Turnstile
