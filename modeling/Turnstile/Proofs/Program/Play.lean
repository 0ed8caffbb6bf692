import Turnstile.Program.Play

/-!
Programs that are played without anything in between.

A program that is played is taken apart where it was put together: its first part leaves the state that the rest
starts from. What an attempt that ends by itself leaves, and what it ends with, is described by one condition on both,
and there is one rule for each way of making an attempt. Nothing is said by it of an attempt that breaks off; where the
wrapped operation always answers, that is one that breaks down.
-/

namespace Turnstile

variable {σ ω β γ : Type} {host : Host σ ω} {s s' : σ}

namespace Exit

variable {α : Type}

/-- The answer of an attempt that has ended with one. -/
def answer? : Exit (Except Failure α) → Option α
  | .finished (.ok answer) => some answer
  | _ => none

/-- An attempt that is known to have ended with an answer has ended by itself, with that answer. -/
theorem of_answer {played : σ × Exit (Except Failure α)} {answer : α}
    (answered : played.2.answer? = some answer) : played = (played.1, .finished (.ok answer)) := by
  obtain ⟨s, exit⟩ := played
  simp only [answer?] at answered
  split at answered
  · cases answered
    rfl
  · cases answered

/-- Whether a breakdown has ended it. -/
def isBreakdown : Exit α → Bool
  | .broke _ _ => true
  | .finished _ => false
  | .cancelled _ => false

/-- What is not ended by a breakdown is not ended by any particular one. -/
theorem ne_broke {exit : Exit α} (whole : exit.isBreakdown = false) (held : Option Lease) (why : Breakdown) :
    exit ≠ .broke held why := by
  rintro rfl
  cases whole

end Exit

namespace Program

/-- A program that finishes after a call has been answered: the call has left some state and some reply, and the rest
finishes from there. A breakdown would have ended it. -/
theorem finished_call {held : Option Lease} {c : Call} {next : Except Failure c.Reply → Program ω β} {b : β}
    (played : (Program.call held c next).play host s = (s', .finished b)) :
    ∃ mid reply, host.call c s = (mid, .ok reply) ∧ (next reply).play host mid = (s', .finished b) := by
  simp only [play] at played
  rcases called : host.call c s with ⟨mid, why | reply⟩ <;> rw [called] at played
  · cases played
  · exact ⟨mid, reply, rfl, played⟩

/-- A program that finishes after the wrapped operation has been told its answer, and the rest finishes from there. -/
theorem finished_work {held : Option Lease} {next : ω → Program ω β} {b : β}
    (played : (Program.work held next).play host s = (s', .finished b)) :
    ∃ mid answer, host.work s = (mid, .answered answer) ∧ (next answer).play host mid = (s', .finished b) := by
  simp only [play] at played
  rcases worked : host.work s with ⟨mid, answer | why | _⟩ <;> rw [worked] at played
  · exact ⟨mid, answer, rfl, played⟩
  · cases played
  · cases played

/-- Where a call is answered, playing goes on with what follows the reply. -/
theorem play_call {held : Option Lease} {c : Call} {next : Except Failure c.Reply → Program ω β} {mid : σ}
    {reply : Except Failure c.Reply} (called : host.call c s = (mid, .ok reply)) :
    (Program.call held c next).play host s = (next reply).play host mid := by
  simp only [play, called]

/-- Where the wrapped operation answers, playing goes on with what follows the answer. -/
theorem play_work {held : Option Lease} {next : ω → Program ω β} {mid : σ} {answer : ω}
    (worked : host.work s = (mid, .answered answer)) :
    (Program.work held next).play host s = (next answer).play host mid := by
  simp only [play, worked]

/-- A program that finishes has finished its first part, and then the rest from there. The proof goes along the first
part, which is played as it would be alone. -/
theorem finished_bind {p : Program ω β} {f : β → Program ω γ} {c : γ}
    (played : (p >>= f).play host s = (s', .finished c)) :
    ∃ mid b, p.play host s = (mid, .finished b) ∧ (f b).play host mid = (s', .finished c) := by
  induction p generalizing s with
  | done b => exact ⟨s, b, rfl, played⟩
  | broken held why => cases played
  | call held call next inductionHypothesis =>
    obtain ⟨mid, reply, called, onward⟩ := finished_call played
    rw [play_call called]
    exact inductionHypothesis reply onward
  | fresh next inductionHypothesis => exact inductionHypothesis _ played
  | work held next inductionHypothesis =>
    obtain ⟨mid, answer, worked, onward⟩ := finished_work played
    rw [play_work worked]
    exact inductionHypothesis answer onward

/-- A lease that is held makes no difference to a program that finishes: it is only noted for the case of a breakdown. -/
theorem finished_holding {p : Program ω β} {lease : Lease} {b : β}
    (played : (p.holding lease).play host s = (s', .finished b)) : p.play host s = (s', .finished b) := by
  induction p generalizing s with
  | done b => exact played
  | broken held why => cases played
  | call held call next inductionHypothesis =>
    obtain ⟨mid, reply, called, onward⟩ := finished_call played
    rw [play_call called]
    exact inductionHypothesis reply onward
  | fresh next inductionHypothesis => exact inductionHypothesis _ played
  | work held next inductionHypothesis =>
    obtain ⟨mid, answer, worked, onward⟩ := finished_work played
    rw [play_work worked]
    exact inductionHypothesis answer onward

/-- Where the wrapped operation always answers, a program finishes or breaks down, for nothing else could stop it. -/
theorem finishes (p : Program ω β) (answers : ∀ s, ∃ s' answer, host.work s = (s', .answered answer)) (s : σ)
    (whole : ∀ held why, (p.play host s).2 ≠ .broke held why) : ∃ s' b, p.play host s = (s', .finished b) := by
  induction p generalizing s with
  | done b => exact ⟨s, b, rfl⟩
  | broken held why => exact absurd rfl (whole held why)
  | call held call next inductionHypothesis =>
    simp only [play] at whole ⊢
    rcases called : host.call call s with ⟨mid, why | reply⟩
    · rw [called] at whole
      exact absurd rfl (whole held why)
    · rw [called] at whole
      exact inductionHypothesis reply mid whole
  | fresh next inductionHypothesis => exact inductionHypothesis _ _ whole
  | work held next inductionHypothesis =>
    obtain ⟨mid, answer, worked⟩ := answers s
    simp only [play, worked] at whole ⊢
    exact inductionHypothesis answer mid whole

end Program

namespace Attempt

variable {post : σ → Except Failure β → Prop}

/-- If the attempt ends by itself when it is played, what it leaves and its outcome are as described. -/
def Brings (host : Host σ ω) (s : σ) (post : σ → Except Failure β → Prop) (p : Attempt ω β) : Prop :=
  ∀ s' outcome, p.run.play host s = (s', .finished outcome) → post s' outcome

/-- What an attempt brings may be described less closely. -/
theorem Brings.mono {post' : σ → Except Failure β → Prop} {p : Attempt ω β} (brings : p.Brings host s post)
    (implies : ∀ s' outcome, post s' outcome → post' s' outcome) : p.Brings host s post' :=
  fun s' outcome played => implies s' outcome (brings s' outcome played)

/-- To pass on a result or a failure changes nothing, so the description has to hold of the present state. -/
theorem brings_ofResult {outcome : Except Failure β} (holds : post s outcome) :
    (ofResult outcome : Attempt ω β).Brings host s post := by
  intro s' outcome' played
  cases played
  exact holds

/-- To return a result changes nothing. -/
theorem brings_pure {b : β} (holds : post s (.ok b)) : (pure b : Attempt ω β).Brings host s post :=
  brings_ofResult holds

/-- To fail changes nothing. -/
theorem brings_throw {why : Failure} (holds : post s (.error why)) :
    (throw why : Attempt ω β).Brings host s post :=
  brings_ofResult holds

/-- To ask makes one call. What the call leaves and replies, a failure included, is what the attempt brings. -/
theorem brings_ask {c : Call} {post : σ → Except Failure c.Reply → Prop}
    (holds : ∀ s' reply, host.call c s = (s', .ok reply) → post s' reply) :
    (ask c : Attempt ω c.Reply).Brings host s post := by
  intro s' outcome played
  obtain ⟨mid, reply, called, ended⟩ := Program.finished_call played
  cases ended
  exact holds s' outcome called

/-- To ask and take a failure as an answer makes one call, too, and ends with a result in any case. -/
theorem brings_probe {c : Call} {post : σ → Except Failure (Except Failure c.Reply) → Prop}
    (holds : ∀ s' reply, host.call c s = (s', .ok reply) → post s' (.ok reply)) :
    (probe c : Attempt ω _).Brings host s post := by
  intro s' outcome played
  obtain ⟨mid, reply, called, ended⟩ := Program.finished_call played
  cases ended
  exact holds s' reply called

/-- To make up a name brings the name that the host makes up. -/
theorem brings_freshName {post : σ → Except Failure String → Prop}
    (holds : post (host.fresh s).1 (.ok (host.fresh s).2)) : (freshName : Attempt ω String).Brings host s post := by
  intro s' outcome played
  cases played
  exact holds

/-- To run the operation brings what it answers, wherever it does answer. -/
theorem brings_work {host : Host σ (Except Failure β)}
    (holds : ∀ s' answer, host.work s = (s', .answered answer) → post s' answer) :
    (work : Attempt (Except Failure β) β).Brings host s post := by
  intro s' outcome played
  obtain ⟨mid, answer, worked, ended⟩ := Program.finished_work played
  cases ended
  exact holds s' outcome worked

/-- One attempt after another: the second starts from what the first leaves, and a failure of the first ends both. -/
theorem Brings.bind {p : Attempt ω γ} {f : γ → Attempt ω β} (mid : σ → Except Failure γ → Prop)
    (first : p.Brings host s mid) (onward : ∀ s' a, mid s' (.ok a) → (f a).Brings host s' post)
    (fails : ∀ s' why, mid s' (.error why) → post s' (.error why)) : (p >>= f).Brings host s post := by
  intro s' outcome played
  obtain ⟨between, early, before, after⟩ := Program.finished_bind played
  have holds := first between early before
  cases early with
  | ok a => exact onward between a holds s' outcome after
  | error why =>
    cases after
    exact fails s' why holds

/-- A failure that is caught is a result, and what follows goes on with it from the state in which the failure came. -/
theorem Brings.caught {p : Attempt ω γ} {f : Except Failure γ → Attempt ω β} (mid : σ → Except Failure γ → Prop)
    (first : p.Brings host s mid) (onward : ∀ s' result, mid s' result → (f result).Brings host s' post) :
    (p.caught >>= f).Brings host s post := by
  intro s' outcome played
  obtain ⟨between, caught, before, after⟩ := Program.finished_bind played
  obtain ⟨_, result, inside, given⟩ := Program.finished_bind before
  cases given
  exact onward between result (first between result inside) s' outcome after

/-- A lease that is held changes nothing of what an attempt brings that ends by itself. -/
theorem Brings.holding {p : Attempt ω β} (brings : p.Brings host s post) (lease : Lease) :
    (p.holding lease).Brings host s post :=
  fun s' outcome played => brings s' outcome (Program.finished_holding played)

end Attempt

end Turnstile
