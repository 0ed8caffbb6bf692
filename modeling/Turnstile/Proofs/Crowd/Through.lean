import Turnstile.Proofs.Crowd

/-!
Programs that see the answers of the wrapped operation through a function.

A program that works with answers of one kind becomes one for answers of another kind when each answer is first turned
into one that it knows, and its own result into another one. Callers whose programs are made so take the same steps as
the programs they are made of: to every course of a crowd of them belongs a course of a crowd of the latter, over the
same store at the same times, in which the operation's answers are those that the programs saw.

An attempt sees through a function when its parts do, so there is one rule for each way of putting attempts together.
-/

namespace Turnstile

variable {α ω ω' β β' γ γ' : Type}

namespace Program

/-- The same program, with the operation's answers seen through a function and its result turned into another. -/
def through (see : ω → ω') (turn : β' → β) : Program ω' β' → Program ω β
  | .done b => .done (turn b)
  | .broken held why => .broken held why
  | .call held c next => .call held c fun reply => (next reply).through see turn
  | .fresh next => .fresh fun name => (next name).through see turn
  | .work held next => .work held fun answer => (next (see answer)).through see turn

/-- What follows a program that sees through a function follows the program itself, if what is handed on is turned back
first. -/
theorem through_bind (see : ω → ω') (turn : β' → β) (p : Program ω' γ') (f : γ' → Program ω' β') (f' : γ → Program ω β)
    (back : γ' → γ) (each : ∀ b, (f b).through see turn = f' (back b)) :
    (p.bind f).through see turn = (p.through see back).bind f' := by
  induction p with
  | done b => exact each b
  | broken held why => rfl
  | call held c next inductionHypothesis => exact congrArg (Program.call held c) (funext inductionHypothesis)
  | fresh next inductionHypothesis => exact congrArg Program.fresh (funext inductionHypothesis)
  | work held next inductionHypothesis =>
    exact congrArg (Program.work held) (funext fun answer => inductionHypothesis (see answer))

/-- The lease that is held is told alike, whether before or after the answers are seen through a function. -/
theorem through_holding (see : ω → ω') (turn : β' → β) (lease : Lease) (p : Program ω' β') :
    (p.holding lease).through see turn = (p.through see turn).holding lease := by
  induction p with
  | done b => rfl
  | broken held why => rfl
  | call held c next inductionHypothesis => exact congrArg (Program.call _ c) (funext inductionHypothesis)
  | fresh next inductionHypothesis => exact congrArg Program.fresh (funext inductionHypothesis)
  | work held next inductionHypothesis =>
    exact congrArg (Program.work _) (funext fun answer => inductionHypothesis (see answer))

/-- Turning the result is what is done last, so a program may be seen through first and have its result turned
afterwards. -/
theorem through_turn (see : ω → ω') (turn : β' → β) (p : Program ω' β') :
    p.through see turn = (p.through see id).bind fun b => .done (turn b) := by
  induction p with
  | done b => rfl
  | broken held why => rfl
  | call held c next inductionHypothesis => exact congrArg (Program.call held c) (funext inductionHypothesis)
  | fresh next inductionHypothesis => exact congrArg Program.fresh (funext inductionHypothesis)
  | work held next inductionHypothesis =>
    exact congrArg (Program.work held) (funext fun answer => inductionHypothesis (see answer))

/-! What is left of a program that sees through a function. -/

variable {see : ω → ω'} {turn : β' → β} {p : Program ω' β'}

/-- Where a program that sees through a function is over, so is the program itself, and its result was turned. -/
theorem through_done {b : β} (is : p.through see turn = .done b) : ∃ b', p = .done b' ∧ turn b' = b := by
  cases p with
  | done b' => exact ⟨b', rfl, Program.done.inj is⟩
  | _ => cases is

/-- Where a program that sees through a function makes a call, the program itself makes it, too, and goes on alike. -/
theorem through_call {held : Option Lease} {c : Call} {next : Except Failure c.Reply → Program ω β}
    (is : p.through see turn = .call held c next) :
    ∃ next', p = .call held c next' ∧ ∀ reply, (next' reply).through see turn = next reply := by
  cases p with
  | call held' c' next' =>
    simp only [through, Program.call.injEq] at is
    obtain ⟨rfl, rfl, same⟩ := is
    exact ⟨next', rfl, congrFun (eq_of_heq same)⟩
  | _ => cases is

/-- Where a program that sees through a function makes up a name, so does the program itself. -/
theorem through_fresh {next : String → Program ω β} (is : p.through see turn = .fresh next) :
    ∃ next', p = .fresh next' ∧ ∀ name, (next' name).through see turn = next name := by
  cases p with
  | fresh next' => exact ⟨next', rfl, congrFun (Program.fresh.inj is)⟩
  | _ => cases is

/-- Where a program that sees through a function runs the operation, so does the program itself, and it sees each answer
through the function. -/
theorem through_work {held : Option Lease} {next : ω → Program ω β} (is : p.through see turn = .work held next) :
    ∃ next', p = .work held next' ∧ ∀ answer, (next' (see answer)).through see turn = next answer := by
  cases p with
  | work held' next' =>
    obtain ⟨rfl, same⟩ := Program.work.inj is
    exact ⟨next', rfl, congrFun same⟩
  | _ => cases is

end Program

namespace Attempt

/-- The same attempt, with the operation's answers seen through a function. -/
def through (see : ω → ω') (p : Attempt ω' γ) : Attempt ω γ := ExceptT.mk (p.run.through see id)

variable {see : ω → ω'} {p : Attempt ω' γ} {q : Attempt ω γ}

/-- One attempt after another, each of them seen through the function. A failure ends both ways alike. -/
theorem through_bind {f : γ → Attempt ω' γ'} {f' : γ → Attempt ω γ'} (first : p.through see = q)
    (rest : ∀ b, (f b).through see = f' b) : (p >>= f).through see = q >>= f' := by
  subst first
  refine Program.through_bind see id p.run (ExceptT.bindCont f) (ExceptT.bindCont f') id ?_
  intro outcome
  cases outcome with
  | ok b => exact rest b
  | error why => rfl

/-- Catching a failure is the same on both sides. -/
theorem through_caught (same : p.through see = q) : p.caught.through see = q.caught := by
  subst same
  exact Program.through_bind see id p.run _ _ id fun _ => rfl

/-- Telling the lease that is held is the same on both sides. -/
theorem through_holding (same : p.through see = q) (lease : Lease) : (p.holding lease).through see = q.holding lease := by
  subst same
  exact Program.through_holding see id lease p.run

/-- Breaking down is the same on both sides, since no answer of the operation is involved. -/
theorem through_ofBreakdown (result : Except Breakdown γ) :
    (ofBreakdown result : Attempt ω' γ).through see = ofBreakdown result := by
  cases result <;> rfl

end Attempt

/-- A deed as the program saw it. -/
def Deed.through (see : ω → ω') : Deed ω → Deed ω'
  | .called c reply => .called c reply
  | .broke c why => .broke c why
  | .named name => .named name
  | .worked answer => .worked (see answer)

/-- A note with its deed as the program saw it. -/
def Note.through (see : ω → ω') (note : Note ω) : Note ω' := ⟨note.caller, note.time, note.deed.through see⟩

/-- A move with its deed as the program saw it. -/
def Move.through (see : ω → ω') : Move ω → Move ω'
  | .own i deed => .own i (deed.through see)
  | .outside c => .outside c
  | .purge => .purge
  | .wait later => .wait later

/-- A scene with its notes as the programs saw them. -/
def Scene.through (see : ω → ω') (v : Scene α ω) : Scene α ω' := ⟨v.now, v.record, v.lock, v.past.map (Note.through see)⟩

namespace Crowd

/-- The crowd of the programs that callers are made of, over the same store. -/
def behind (see : ω → ω') (w : Crowd α ω β) (programs : Nat → Program ω' β') : Crowd α ω' β' where
  now := w.now
  store := w.store
  callers := programs
  past := w.past.map (Note.through see)

/-- Each caller is made of a program, and turns the program's result into its own. -/
def MadeOf (see : ω → ω') (turn : Nat → β' → β) (w : Crowd α ω β) (programs : Nat → Program ω' β') : Prop :=
  ∀ i, w.callers i = (programs i).through see (turn i)

variable {see : ω → ω'} {turn : Nat → β' → β} {w w' : Crowd α ω β} {programs : Nat → Program ω' β'}

/-- A caller that goes on goes on as its program does, and all others stay as they are. -/
theorem MadeOf.update (made : w.MadeOf see turn programs) {i : Nat} {rest : Program ω β} {rest' : Program ω' β'}
    (same : rest = rest'.through see (turn i)) (callers : w'.callers = Function.update w.callers i rest) :
    w'.MadeOf see turn (Function.update programs i rest') := by
  intro j
  rw [callers]
  by_cases mine : j = i
  · subst mine
    rw [Function.update_self, Function.update_self, same]
  · rw [Function.update_of_ne mine, Function.update_of_ne mine]
    exact made j

variable [TokenNumber α]

/-- A step of callers is a step of the programs they are made of, over the same store. Each kind of step is matched by
one of its own kind. -/
theorem Step.behind {move : Move ω} (made : w.MadeOf see turn programs) (step : w.Step move w') :
    ∃ programs', w'.MadeOf see turn programs' ∧
      (w.behind see programs).Step (move.through see) (w'.behind see programs') := by
  cases step with
  | answered i held c next store reply ready performed =>
    obtain ⟨next', is, same⟩ := Program.through_call ((made i).symm.trans ready)
    exact ⟨_, made.update (same reply).symm rfl, .answered i held c next' store reply is performed⟩
  | failed i held c next why ready =>
    obtain ⟨next', is, same⟩ := Program.through_call ((made i).symm.trans ready)
    exact ⟨_, made.update (same (.error why)).symm rfl, .failed i held c next' why is⟩
  | broke i held c next store why ready performed =>
    obtain ⟨next', is, same⟩ := Program.through_call ((made i).symm.trans ready)
    have broken : Program.broken held why = (Program.broken held why : Program ω' β').through see (turn i) := rfl
    exact ⟨_, made.update broken rfl, .broke i held c next' store why is performed⟩
  | named i next name ready new =>
    obtain ⟨next', is, same⟩ := Program.through_fresh ((made i).symm.trans ready)
    refine ⟨_, made.update (same name).symm rfl, .named i next' name is ?_⟩
    intro note' noted' named
    obtain ⟨note, noted, rfl⟩ := List.mem_map.mp noted'
    obtain ⟨caller, time, deed⟩ := note
    cases deed with
    | named other =>
      cases named
      exact new _ noted rfl
    | _ => cases named
  | worked i held next answer ready =>
    obtain ⟨next', is, same⟩ := Program.through_work ((made i).symm.trans ready)
    exact ⟨_, made.update (same answer).symm rfl, .worked i held next' (see answer) is⟩
  | outside c => exact ⟨programs, made, .outside c⟩
  | purge => exact ⟨programs, made, .purge⟩
  | wait later ahead => exact ⟨programs, made, .wait later ahead⟩

/-- To every course of callers belongs a course of the programs they are made of, as long as what is fair for the
callers is fair for the programs. -/
theorem Course.behind {k : String} {fair : Move ω → Scene α ω → Scene α ω → Prop}
    {fair' : Move ω' → Scene α ω' → Scene α ω' → Prop}
    (implies : ∀ move v v', fair move v v' → fair' (move.through see) (v.through see) (v'.through see))
    (made : w.MadeOf see turn programs) (course : Course k fair w w') :
    ∃ programs', w'.MadeOf see turn programs' ∧ Course k fair' (w.behind see programs) (w'.behind see programs') := by
  induction course with
  | start => exact ⟨programs, made, .start _⟩
  | step _ step kept inductionHypothesis =>
    obtain ⟨programs', made', course'⟩ := inductionHypothesis
    obtain ⟨programs'', made'', step'⟩ := step.behind made'
    exact ⟨programs'', made'', .step course' step' (implies _ _ _ kept)⟩

end Crowd

end Turnstile
