import Turnstile.Proofs.Crowd.Trace

/-!
How attempts end.

What an attempt has done when it ends, and what it ends with, is described by one condition on both. Nothing is assumed
about the answers that it got on the way. There is one rule for each way of making an attempt, and an attempt that may
end in either way is described as a whole, by its results and by its failures.
-/

namespace Turnstile

namespace Attempt

variable {ω β γ : Type} {post : List (Deed ω) → Except Failure β → Prop}

/-- Whatever the attempt is answered, its deeds and its outcome are as described. -/
def Yields (post : List (Deed ω) → Except Failure β → Prop) (p : Attempt ω β) : Prop :=
  ∀ deeds outcome, p.run.Ends deeds outcome → post deeds outcome

/-- An attempt may be described less closely. -/
theorem Yields.mono {post' : List (Deed ω) → Except Failure β → Prop} {p : Attempt ω β} (yields : p.Yields post)
    (implies : ∀ deeds outcome, post deeds outcome → post' deeds outcome) : p.Yields post' :=
  fun deeds outcome ended => implies deeds outcome (yields deeds outcome ended)

/-- To pass on a result or a failure is to end with it by no deeds. -/
theorem yields_ofResult {outcome : Except Failure β} (holds : post [] outcome) :
    (ofResult outcome : Attempt ω β).Yields post := by
  intro deeds outcome' ended
  obtain ⟨rfl, rfl⟩ := ends_done.mp ended
  exact holds

/-- To return a result is to end with it by no deeds. -/
theorem yields_pure {b : β} (holds : post [] (.ok b)) : (pure b : Attempt ω β).Yields post := yields_ofResult holds

/-- To fail is to end with the failure by no deeds. -/
theorem yields_throw {why : Failure} (holds : post [] (.error why)) : (throw why : Attempt ω β).Yields post :=
  yields_ofResult holds

/-- To ask is to make one call and to end with whatever it is answered. -/
theorem yields_ask {c : Call} {post : List (Deed ω) → Except Failure c.Reply → Prop}
    (holds : ∀ reply, post [.called c reply] reply) : (ask c : Attempt ω c.Reply).Yields post := by
  intro deeds outcome ended
  obtain ⟨reply, rest, rfl, onward⟩ := ends_call.mp ended
  obtain ⟨rfl, rfl⟩ := ends_done.mp onward
  exact holds reply

/-- To ask and take a failure as an answer is to make one call and to win whatever it is answered. -/
theorem yields_probe {c : Call} {post : List (Deed ω) → Except Failure (Except Failure c.Reply) → Prop}
    (holds : ∀ reply, post [.called c reply] (.ok reply)) : (probe c : Attempt ω _).Yields post := by
  intro deeds outcome ended
  obtain ⟨reply, rest, rfl, onward⟩ := ends_call.mp ended
  obtain ⟨rfl, rfl⟩ := ends_done.mp onward
  exact holds reply

/-- To make up a name is one deed, and the name is the result. -/
theorem yields_freshName {post : List (Deed ω) → Except Failure String → Prop}
    (holds : ∀ name, post [.named name] (.ok name)) : (freshName : Attempt ω String).Yields post := by
  intro deeds outcome ended
  cases ended with
  | named _ name _ _ onward =>
    obtain ⟨rfl, rfl⟩ := ends_done.mp onward
    exact holds name

/-- To run the operation is one deed, and its answer is what the attempt ends with. -/
theorem yields_work {post : List (Deed (Except Failure β)) → Except Failure β → Prop}
    (holds : ∀ answer, post [.worked answer] answer) : (work : Attempt (Except Failure β) β).Yields post := by
  intro deeds outcome ended
  cases ended with
  | worked _ _ answer _ _ onward =>
    obtain ⟨rfl, rfl⟩ := ends_done.mp onward
    exact holds answer

/-- One attempt after another: the second begins with the first one's result, and a failure of the first ends both. -/
theorem Yields.bind {p : Attempt ω γ} {f : γ → Attempt ω β} (mid : List (Deed ω) → Except Failure γ → Prop)
    (first : p.Yields mid)
    (onward : ∀ before b, mid before (.ok b) → (f b).Yields fun rest outcome => post (before ++ rest) outcome)
    (fails : ∀ before why, mid before (.error why) → post before (.error why)) : (p >>= f).Yields post := by
  intro deeds outcome ended
  obtain ⟨before, early, rest, endedEarly, after, rfl⟩ := Program.ends_bind.mp ended
  have holds := first early before endedEarly
  cases before with
  | ok b => exact onward early b holds rest outcome after
  | error why =>
    obtain ⟨rfl, rfl⟩ := ends_done.mp after
    rw [List.append_nil]
    exact fails early why holds

/-- A failure that is caught is a result, and nothing is done beyond the attempt itself. -/
theorem Yields.caught {post : List (Deed ω) → Except Failure (Except Failure β) → Prop} {p : Attempt ω β}
    (yields : p.Yields fun deeds outcome => post deeds (.ok outcome)) : p.caught.Yields post := by
  intro deeds outcome ended
  obtain ⟨caught, first, rest, endedFirst, after, rfl⟩ := Program.ends_bind.mp ended
  obtain ⟨rfl, rfl⟩ := ends_done.mp after
  rw [List.append_nil]
  exact yields first caught endedFirst

/-- Telling the lease that is held changes neither the deeds nor the end. -/
theorem Yields.holding {p : Attempt ω β} (yields : p.Yields post) (lease : Lease) : (p.holding lease).Yields post := by
  intro deeds outcome ended
  obtain ⟨left, leads, is⟩ := Program.leadsTo_holding.mp ended
  cases left with
  | done b =>
    cases is
    exact yields deeds outcome leads
  | _ => cases is

end Attempt

end Turnstile
