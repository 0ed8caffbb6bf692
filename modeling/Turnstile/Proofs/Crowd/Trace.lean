import Turnstile.Proofs.Crowd

/-!
What a program has done, deed by deed.

A program leads by deeds to what is left of it, whatever the answers are: nothing here knows of a store. This is read
along the tree of the program, so what it takes to end, or to get as far as the wrapped operation, is found part by
part, with one equivalence for each way of making an attempt. Along every course of a crowd, each caller's program has
led by the caller's own deeds to what it still has to do.
-/

namespace Turnstile

variable {α ω β γ : Type}

/-- The call that a deed made, whatever became of it. -/
def Deed.call? : Deed ω → Option Call
  | .called c _ | .broke c _ => some c
  | .named _ | .worked _ => none

namespace Program

/-- By these deeds, first to last, the program comes to what is left of it. -/
inductive LeadsTo : Program ω β → List (Deed ω) → Program ω β → Prop
  | start (p : Program ω β) : LeadsTo p [] p
  | answered (held : Option Lease) (c : Call) (next : Except Failure c.Reply → Program ω β)
      (reply : Except Failure c.Reply) (deeds : List (Deed ω)) (q : Program ω β)
      (rest : LeadsTo (next reply) deeds q) : LeadsTo (.call held c next) (.called c reply :: deeds) q
  | broke (held : Option Lease) (c : Call) (next : Except Failure c.Reply → Program ω β) (why : Breakdown) :
      LeadsTo (.call held c next) [.broke c why] (.broken held why)
  | named (next : String → Program ω β) (name : String) (deeds : List (Deed ω)) (q : Program ω β)
      (rest : LeadsTo (next name) deeds q) : LeadsTo (.fresh next) (.named name :: deeds) q
  | worked (held : Option Lease) (next : ω → Program ω β) (answer : ω) (deeds : List (Deed ω))
      (q : Program ω β) (rest : LeadsTo (next answer) deeds q) :
      LeadsTo (.work held next) (.worked answer :: deeds) q

/-- The program may do nothing but run the operation next. -/
def AtWork (p : Program ω β) : Prop := ∃ held next, p = .work held next

/-- By these deeds the program comes to its end. -/
def Ends (p : Program ω β) (deeds : List (Deed ω)) (b : β) : Prop := p.LeadsTo deeds (.done b)

/-- By these deeds the program comes to the operation. -/
def ComesToWork (p : Program ω β) (deeds : List (Deed ω)) : Prop := ∃ q, p.LeadsTo deeds q ∧ q.AtWork

variable {p q r : Program ω β} {first deeds others : List (Deed ω)}

/-- What a program comes to by some deeds, and that by others, it comes to by all of them one after the other. -/
theorem LeadsTo.trans (before : p.LeadsTo first q) (after : q.LeadsTo others r) : p.LeadsTo (first ++ others) r := by
  induction before with
  | start => exact after
  | answered held c next reply deeds q _ inductionHypothesis =>
    exact .answered held c next reply _ r (inductionHypothesis after)
  | broke held c next why =>
    cases after
    exact .broke held c next why
  | named next name deeds q _ inductionHypothesis => exact .named next name _ r (inductionHypothesis after)
  | worked held next answer deeds q _ inductionHypothesis =>
    exact .worked held next answer _ r (inductionHypothesis after)

/-- What comes after the first deeds is done by what they left. A program does one thing at a time, and the deed tells
the answer, so the same deeds cannot lead it to two places. -/
theorem LeadsTo.onward (before : p.LeadsTo first q) (all : p.LeadsTo (first ++ others) r) : q.LeadsTo others r := by
  induction before with
  | start => exact all
  | answered held c next reply deeds q _ inductionHypothesis =>
    cases all with
    | answered _ _ _ _ _ _ onward => exact inductionHypothesis onward
  | broke held c next why =>
    cases all
    exact .start _
  | named next name deeds q _ inductionHypothesis =>
    cases all with
    | named _ _ _ _ onward => exact inductionHypothesis onward
  | worked held next answer deeds q _ inductionHypothesis =>
    cases all with
    | worked _ _ _ _ _ onward => exact inductionHypothesis onward

/-- The operation only ran where the program had come to it, for no other step of a program leaves such a deed. -/
theorem LeadsTo.comesToWork {answer : ω} (all : p.LeadsTo (first ++ .worked answer :: others) r) :
    p.ComesToWork first := by
  induction first generalizing p with
  | nil =>
    cases all with
    | worked held next _ _ _ _ => exact ⟨_, .start _, held, next, rfl⟩
  | cons deed first inductionHypothesis =>
    rw [List.cons_append] at all
    generalize more : first ++ .worked answer :: others = after at all
    cases all with
    | broke => simp at more
    | answered held c next reply _ _ onward =>
      obtain ⟨q, before, atWork⟩ := inductionHypothesis (more ▸ onward)
      exact ⟨q, .answered held c next reply _ q before, atWork⟩
    | named next name _ _ onward =>
      obtain ⟨q, before, atWork⟩ := inductionHypothesis (more ▸ onward)
      exact ⟨q, .named next name _ q before, atWork⟩
    | worked held next answer _ _ onward =>
      obtain ⟨q, before, atWork⟩ := inductionHypothesis (more ▸ onward)
      exact ⟨q, .worked held next answer _ q before, atWork⟩

/-! Programs that are made of programs. -/

/-- Two programs one after the other: the first has not ended, or it has and the second has begun. The deeds are split
where the first one ends. -/
theorem leadsTo_bind {f : β → Program ω γ} {q : Program ω γ} :
    (p.bind f).LeadsTo deeds q ↔
      (∃ p', (∀ b, p' ≠ .done b) ∧ p.LeadsTo deeds p' ∧ q = p'.bind f) ∨
        ∃ b first rest, p.Ends first b ∧ (f b).LeadsTo rest q ∧ deeds = first ++ rest := by
  constructor
  · intro leads
    induction p generalizing deeds with
    | done b => exact .inr ⟨b, [], deeds, .start _, leads, rfl⟩
    | broken held why =>
      cases leads
      exact .inl ⟨.broken held why, by simp, .start _, rfl⟩
    | call held c next inductionHypothesis =>
      cases leads with
      | start => exact .inl ⟨.call held c next, by simp, .start _, rfl⟩
      | broke _ _ _ why => exact .inl ⟨.broken held why, by simp, .broke held c next why, rfl⟩
      | answered _ _ _ reply deeds _ onward =>
        rcases inductionHypothesis reply onward with ⟨p', running, before, is⟩ | ⟨b, first, rest, ended, after, is⟩
        · exact .inl ⟨p', running, .answered held c next reply _ p' before, is⟩
        · exact .inr ⟨b, _ :: first, rest, .answered held c next reply _ _ ended, after, by rw [is]; rfl⟩
    | fresh next inductionHypothesis =>
      cases leads with
      | start => exact .inl ⟨.fresh next, by simp, .start _, rfl⟩
      | named _ name deeds _ onward =>
        rcases inductionHypothesis name onward with ⟨p', running, before, is⟩ | ⟨b, first, rest, ended, after, is⟩
        · exact .inl ⟨p', running, .named next name _ p' before, is⟩
        · exact .inr ⟨b, _ :: first, rest, .named next name _ _ ended, after, by rw [is]; rfl⟩
    | work held next inductionHypothesis =>
      cases leads with
      | start => exact .inl ⟨.work held next, by simp, .start _, rfl⟩
      | worked _ _ answer deeds _ onward =>
        rcases inductionHypothesis answer onward with ⟨p', running, before, is⟩ | ⟨b, first, rest, ended, after, is⟩
        · exact .inl ⟨p', running, .worked held next answer _ p' before, is⟩
        · exact .inr ⟨b, _ :: first, rest, .worked held next answer _ _ ended, after, by rw [is]; rfl⟩
  · have running {p p' : Program ω β} {deeds : List (Deed ω)} (leads : p.LeadsTo deeds p') :
        (p.bind f).LeadsTo deeds (p'.bind f) := by
      induction leads with
      | start => exact .start _
      | answered held c next reply deeds q _ before => exact .answered held c _ reply _ _ before
      | broke held c next why => exact .broke held c _ why
      | named next name deeds q _ before => exact .named _ name _ _ before
      | worked held next answer deeds q _ before => exact .worked held _ answer _ _ before
    rintro (⟨p', -, before, rfl⟩ | ⟨b, first, rest, ended, after, rfl⟩)
    · exact running before
    · exact (running ended).trans after

/-- Two programs one after the other have ended when the first has and then the second. -/
theorem ends_bind {f : β → Program ω γ} {c : γ} :
    (p.bind f).Ends deeds c ↔ ∃ b first rest, p.Ends first b ∧ (f b).Ends rest c ∧ deeds = first ++ rest := by
  constructor
  · intro ends
    rcases leadsTo_bind.mp ends with ⟨p', running, -, is⟩ | ended
    · cases p' with
      | done b => exact absurd rfl (running b)
      | _ => cases is
    · exact ended
  · exact fun ended => leadsTo_bind.mpr (.inr ended)

/-- Two programs one after the other come to the operation in the first one, or in the second when the first has ended. -/
theorem comesToWork_bind {f : β → Program ω γ} :
    (p.bind f).ComesToWork deeds ↔ p.ComesToWork deeds ∨
      ∃ b first rest, p.Ends first b ∧ (f b).ComesToWork rest ∧ deeds = first ++ rest := by
  constructor
  · rintro ⟨q, leads, held, next, rfl⟩
    rcases leadsTo_bind.mp leads with ⟨p', running, before, is⟩ | ⟨b, first, rest, ended, after, is⟩
    · cases p' with
      | done b => exact absurd rfl (running b)
      | work held next => exact .inl ⟨_, before, held, next, rfl⟩
      | _ => cases is
    · exact .inr ⟨b, first, rest, ended, ⟨_, after, held, next, rfl⟩, is⟩
  · rintro (⟨p', before, held, next, rfl⟩ | ⟨b, first, rest, ended, ⟨q, after, atWork⟩, is⟩)
    · exact ⟨_, leadsTo_bind.mpr (.inl ⟨.work held next, by simp, before, rfl⟩), held, _, rfl⟩
    · exact ⟨q, leadsTo_bind.mpr (.inr ⟨b, first, rest, ended, after, is⟩), atWork⟩

/-- Telling the lease that is held changes nothing of what a program does: the same deeds lead to the same place, with
the lease told. -/
theorem leadsTo_holding {lease : Lease} {q : Program ω β} :
    (p.holding lease).LeadsTo deeds q ↔ ∃ p', p.LeadsTo deeds p' ∧ q = p'.holding lease := by
  constructor
  · intro leads
    induction p generalizing deeds with
    | done b => cases leads; exact ⟨_, .start _, rfl⟩
    | broken held why => cases leads; exact ⟨_, .start _, rfl⟩
    | call held c next inductionHypothesis =>
      cases leads with
      | start => exact ⟨_, .start _, rfl⟩
      | broke _ _ _ why => exact ⟨_, .broke held c next why, rfl⟩
      | answered _ _ _ reply _ _ onward =>
        obtain ⟨p', before, is⟩ := inductionHypothesis reply onward
        exact ⟨p', .answered held c next reply _ p' before, is⟩
    | fresh next inductionHypothesis =>
      cases leads with
      | start => exact ⟨_, .start _, rfl⟩
      | named _ name _ _ onward =>
        obtain ⟨p', before, is⟩ := inductionHypothesis name onward
        exact ⟨p', .named next name _ p' before, is⟩
    | work held next inductionHypothesis =>
      cases leads with
      | start => exact ⟨_, .start _, rfl⟩
      | worked _ _ answer _ _ onward =>
        obtain ⟨p', before, is⟩ := inductionHypothesis answer onward
        exact ⟨p', .worked held next answer _ p' before, is⟩
  · rintro ⟨p', before, rfl⟩
    induction before with
    | start => exact .start _
    | answered held c next reply deeds q _ inductionHypothesis => exact .answered _ c _ reply _ _ inductionHypothesis
    | broke held c next why => exact .broke _ c _ why
    | named next name deeds q _ inductionHypothesis => exact .named _ name _ _ inductionHypothesis
    | worked held next answer deeds q _ inductionHypothesis => exact .worked _ _ answer _ _ inductionHypothesis

/-- Whatever it is answered, the program makes only calls that are allowed. -/
def AsksOnly (allowed : Call → Prop) (p : Program ω β) : Prop :=
  ∀ deeds q, p.LeadsTo deeds q → ∀ deed ∈ deeds, ∀ c, deed.call? = some c → allowed c

section

variable {allowed : Call → Prop}

/-- A program that is over makes no call. -/
theorem asksOnly_done {b : β} : (Program.done b : Program ω β).AsksOnly allowed := by
  intro deeds q leads deed done
  cases leads
  cases done

/-- A program that has broken down makes no call. -/
theorem asksOnly_broken {held : Option Lease} {why : Breakdown} :
    (Program.broken held why : Program ω β).AsksOnly allowed := by
  intro deeds q leads deed done
  cases leads
  cases done

/-- A program that begins with a call makes only allowed ones if that call is allowed and so are those that follow any
reply. -/
theorem asksOnly_call {held : Option Lease} {c : Call} {next : Except Failure c.Reply → Program ω β}
    (allows : allowed c) (rest : ∀ reply, (next reply).AsksOnly allowed) :
    (Program.call held c next).AsksOnly allowed := by
  intro deeds q leads deed done c' is
  cases leads with
  | start => cases done
  | answered _ _ _ reply deeds _ onward =>
    rcases List.mem_cons.mp done with rfl | later
    · cases is
      exact allows
    · exact rest reply deeds q onward deed later c' is
  | broke _ _ _ why =>
    rw [List.mem_singleton.mp done] at is
    cases is
    exact allows

/-- To run the operation is no call, so only what follows has to be looked at. -/
theorem asksOnly_work {held : Option Lease} {next : ω → Program ω β}
    (rest : ∀ answer, (next answer).AsksOnly allowed) : (Program.work held next).AsksOnly allowed := by
  intro deeds q leads deed done c is
  cases leads with
  | start => cases done
  | worked _ _ answer deeds _ onward =>
    rcases List.mem_cons.mp done with rfl | later
    · cases is
    · exact rest answer deeds q onward deed later c is

/-- Two programs one after the other make only allowed calls if both do, whatever result the first one hands on. -/
theorem AsksOnly.bind {f : β → Program ω γ} (before : p.AsksOnly allowed) (after : ∀ b, (f b).AsksOnly allowed) :
    (p.bind f).AsksOnly allowed := by
  intro deeds q leads deed done c is
  rcases leadsTo_bind.mp leads with ⟨p', -, running, -⟩ | ⟨b, first, rest, ended, onward, rfl⟩
  · exact before deeds p' running deed done c is
  · rcases List.mem_append.mp done with early | late
    · exact before first _ ended deed early c is
    · exact after b rest q onward deed late c is

end

end Program

namespace Attempt

/-- By these deeds the attempt comes to a result. -/
def Wins (p : Attempt ω β) (deeds : List (Deed ω)) (b : β) : Prop := p.run.Ends deeds (.ok b)

/-- By these deeds the attempt comes to the operation. -/
def ComesToWork (p : Attempt ω β) (deeds : List (Deed ω)) : Prop := p.run.ComesToWork deeds

variable {deeds : List (Deed ω)}

/-- A program that is over has done nothing, and its end is its result. -/
theorem ends_done {a b : β} : (Program.done a : Program ω β).Ends deeds b ↔ deeds = [] ∧ a = b := by
  constructor
  · intro ends
    cases ends
    exact ⟨rfl, rfl⟩
  · rintro ⟨rfl, rfl⟩
    exact .start _

/-- A program that is over does not come to the operation. -/
theorem not_comesToWork_done {a : β} : ¬ (Program.done a : Program ω β).ComesToWork deeds := by
  rintro ⟨q, leads, held, next, rfl⟩
  cases leads

/-- A program that begins with a call ends when it is answered and the rest ends. A breakdown of the store is no end. -/
theorem ends_call {held : Option Lease} {c : Call} {next : Except Failure c.Reply → Program ω β} {b : β} :
    (Program.call held c next).Ends deeds b ↔
      ∃ reply rest, deeds = .called c reply :: rest ∧ (next reply).Ends rest b := by
  constructor
  · intro ends
    cases ends with
    | answered _ _ _ reply rest _ onward => exact ⟨reply, rest, rfl, onward⟩
  · rintro ⟨reply, rest, rfl, onward⟩
    exact .answered held c next reply rest _ onward

/-- A program that begins with a call comes to the operation when it is answered and the rest comes there. -/
theorem comesToWork_call {held : Option Lease} {c : Call} {next : Except Failure c.Reply → Program ω β} :
    (Program.call held c next).ComesToWork deeds ↔
      ∃ reply rest, deeds = .called c reply :: rest ∧ (next reply).ComesToWork rest := by
  constructor
  · rintro ⟨q, leads, held', next', rfl⟩
    cases leads with
    | answered _ _ _ reply rest _ onward => exact ⟨reply, rest, rfl, _, onward, held', next', rfl⟩
  · rintro ⟨reply, rest, rfl, q, onward, atWork⟩
    exact ⟨q, .answered held c next reply rest q onward, atWork⟩

/-- To return a result wins that result by no deeds. -/
@[simp] theorem wins_pure {a b : β} : (pure a : Attempt ω β).Wins deeds b ↔ deeds = [] ∧ a = b := by
  refine Iff.trans ends_done ?_
  rw [Except.ok.injEq]

/-- To fail does not win. -/
@[simp] theorem wins_throw {why : Failure} {b : β} : ¬ (throw why : Attempt ω β).Wins deeds b := by
  intro wins
  cases (ends_done.mp wins).2

/-- To pass on a result wins it by no deeds. -/
@[simp] theorem wins_ofResult {result : Except Failure β} {b : β} :
    (ofResult result : Attempt ω β).Wins deeds b ↔ deeds = [] ∧ result = .ok b := ends_done

/-- To ask wins the reply by the one call, if the call was answered. -/
@[simp] theorem wins_ask {c : Call} {reply : c.Reply} :
    (ask c : Attempt ω c.Reply).Wins deeds reply ↔ deeds = [.called c (.ok reply)] := by
  refine Iff.trans ends_call ?_
  simp only [ends_done]
  constructor
  · rintro ⟨_, _, rfl, rfl, rfl⟩
    rfl
  · rintro rfl
    exact ⟨_, _, rfl, rfl, rfl⟩

/-- To ask and take a failure as an answer wins by the one call, whatever came of it. -/
@[simp] theorem wins_probe {c : Call} {reply : Except Failure c.Reply} :
    (probe c : Attempt ω (Except Failure c.Reply)).Wins deeds reply ↔ deeds = [.called c reply] := by
  refine Iff.trans ends_call ?_
  constructor
  · rintro ⟨_, _, rfl, ended⟩
    obtain ⟨rfl, is⟩ := ends_done.mp ended
    cases is
    rfl
  · rintro rfl
    exact ⟨_, _, rfl, ends_done.mpr ⟨rfl, rfl⟩⟩

/-- To make up a name wins that name by the one deed. -/
@[simp] theorem wins_freshName {name : String} :
    (freshName : Attempt ω String).Wins deeds name ↔ deeds = [.named name] := by
  constructor
  · intro wins
    cases wins with
    | named _ name _ _ onward =>
      obtain ⟨rfl, is⟩ := ends_done.mp onward
      cases is
      rfl
  · rintro rfl
    exact .named _ name _ _ (.start _)

/-- To return a result does not come to the operation. -/
@[simp] theorem comesToWork_pure {a : β} : ¬ (pure a : Attempt ω β).ComesToWork deeds := not_comesToWork_done

/-- To fail does not come to the operation. -/
@[simp] theorem comesToWork_throw {why : Failure} : ¬ (throw why : Attempt ω β).ComesToWork deeds :=
  not_comesToWork_done

/-- To pass on a result does not come to the operation. -/
@[simp] theorem comesToWork_ofResult {result : Except Failure β} :
    ¬ (ofResult result : Attempt ω β).ComesToWork deeds := not_comesToWork_done

/-- To ask does not come to the operation: after the call it is over. -/
@[simp] theorem comesToWork_ask {c : Call} : ¬ (ask c : Attempt ω c.Reply).ComesToWork deeds := by
  intro comes
  obtain ⟨_, _, _, onward⟩ := comesToWork_call.mp comes
  exact not_comesToWork_done onward

/-- To ask and take a failure as an answer does not come to the operation, either. -/
@[simp] theorem comesToWork_probe {c : Call} :
    ¬ (probe c : Attempt ω (Except Failure c.Reply)).ComesToWork deeds := by
  intro comes
  obtain ⟨_, _, _, onward⟩ := comesToWork_call.mp comes
  exact not_comesToWork_done onward

/-- To make up a name does not come to the operation. -/
@[simp] theorem comesToWork_freshName : ¬ (freshName : Attempt ω String).ComesToWork deeds := by
  rintro ⟨q, leads, held, next, rfl⟩
  cases leads with
  | named _ _ _ _ onward => cases onward

/-- To break down, or not to, does not come to the operation. -/
@[simp] theorem comesToWork_ofBreakdown {outcome : Except Breakdown β} :
    ¬ (ofBreakdown outcome : Attempt ω β).ComesToWork deeds := by
  cases outcome with
  | ok a => exact not_comesToWork_done
  | error why =>
    rintro ⟨q, leads, held, next, rfl⟩
    cases leads

/-- The operation is what its own attempt begins with, so it comes there by no deeds and by no others. -/
@[simp] theorem comesToWork_work {deeds : List (Deed (Except Failure β))} :
    (work : Attempt (Except Failure β) β).ComesToWork deeds ↔ deeds = [] := by
  constructor
  · rintro ⟨q, leads, held, next, rfl⟩
    cases leads with
    | start => rfl
    | worked _ _ _ _ _ onward => cases onward
  · rintro rfl
    exact ⟨_, .start _, _, _, rfl⟩

/-- One attempt after another: the second begins with the first one's result, and both have to be won. -/
theorem wins_bind {p : Attempt ω β} {f : β → Attempt ω γ} {c : γ} :
    (p >>= f).Wins deeds c ↔ ∃ b first rest, p.Wins first b ∧ (f b).Wins rest c ∧ deeds = first ++ rest := by
  refine Iff.trans Program.ends_bind ?_
  constructor
  · rintro ⟨outcome, first, rest, ended, after, is⟩
    cases outcome with
    | ok b => exact ⟨b, first, rest, ended, after, is⟩
    | error why => cases (ends_done.mp after).2
  · rintro ⟨b, first, rest, won, after, is⟩
    exact ⟨.ok b, first, rest, won, after, is⟩

/-- One attempt after another comes to the operation in the first one, or in the second when the first is won. After a
failure there is no second one. -/
theorem comesToWork_bind {p : Attempt ω β} {f : β → Attempt ω γ} :
    (p >>= f).ComesToWork deeds ↔ p.ComesToWork deeds ∨
      ∃ b first rest, p.Wins first b ∧ (f b).ComesToWork rest ∧ deeds = first ++ rest := by
  refine Iff.trans Program.comesToWork_bind (or_congr_right ?_)
  constructor
  · rintro ⟨outcome, first, rest, ended, after, is⟩
    cases outcome with
    | ok b => exact ⟨b, first, rest, ended, after, is⟩
    | error why => exact absurd after not_comesToWork_done
  · rintro ⟨b, first, rest, won, after, is⟩
    exact ⟨.ok b, first, rest, won, after, is⟩

/-- Attempts that never come to the operation make one that does not. -/
theorem not_comesToWork_bind {p : Attempt ω β} {f : β → Attempt ω γ}
    (first : ∀ deeds, ¬ p.ComesToWork deeds) (second : ∀ b deeds, ¬ (f b).ComesToWork deeds) :
    ¬ (p >>= f).ComesToWork deeds := by
  intro comes
  rcases comesToWork_bind.mp comes with before | ⟨b, _, rest, _, after, _⟩
  · exact first deeds before
  · exact second b rest after

/-- Catching a failure comes to the operation where the attempt does, since nothing is done after it. -/
theorem comesToWork_caught {p : Attempt ω β} : p.caught.ComesToWork deeds ↔ p.ComesToWork deeds := by
  refine Iff.trans Program.comesToWork_bind (or_iff_left ?_)
  rintro ⟨outcome, first, rest, -, after, -⟩
  exact not_comesToWork_done after

/-- What an attempt ends with, won or lost, is the result when its failure is caught. -/
theorem wins_caught {p : Attempt ω β} {outcome : Except Failure β} :
    p.caught.Wins deeds outcome ↔ p.run.Ends deeds outcome := by
  refine Iff.trans Program.ends_bind ?_
  constructor
  · rintro ⟨outcome', first, rest, ended, after, rfl⟩
    obtain ⟨rfl, is⟩ := ends_done.mp after
    cases is
    rwa [List.append_nil]
  · intro ended
    exact ⟨outcome, deeds, [], ended, ends_done.mpr ⟨rfl, rfl⟩, (List.append_nil _).symm⟩

/-- Telling the lease that is held does not change where an attempt comes to the operation. -/
theorem comesToWork_holding {p : Attempt ω β} {lease : Lease} :
    (p.holding lease).ComesToWork deeds ↔ p.ComesToWork deeds := by
  constructor
  · rintro ⟨q, leads, held, next, rfl⟩
    obtain ⟨p', before, is⟩ := Program.leadsTo_holding.mp leads
    cases p' with
    | work held next => exact ⟨_, before, held, next, rfl⟩
    | _ => cases is
  · rintro ⟨q, leads, held, next, rfl⟩
    exact ⟨_, Program.leadsTo_holding.mpr ⟨_, leads, rfl⟩, _, _, rfl⟩

end Attempt

namespace Crowd

/-- What a caller has done, first to last. -/
def deedsOf (i : Nat) (past : List (Note ω)) : List (Deed ω) :=
  ((past.filter (·.caller = i)).map Note.deed).reverse

/-- A caller's own deed is its last. -/
theorem deedsOf_mine (i : Nat) (time : Moment) (deed : Deed ω) (past : List (Note ω)) :
    deedsOf i (⟨i, time, deed⟩ :: past) = deedsOf i past ++ [deed] := by
  simp [deedsOf]

/-- Another caller's deed is none of its own. -/
theorem deedsOf_other {i j : Nat} (other : j ≠ i) (time : Moment) (deed : Deed ω) (past : List (Note ω)) :
    deedsOf i (⟨j, time, deed⟩ :: past) = deedsOf i past := by
  simp [deedsOf, other]

/-- What a caller has done is noted, with the time at which it did so, and nothing else is its deed. -/
theorem mem_deedsOf {i : Nat} {past : List (Note ω)} {deed : Deed ω} :
    deed ∈ deedsOf i past ↔ ∃ time, ⟨i, time, deed⟩ ∈ past := by
  simp only [deedsOf, List.mem_reverse, List.mem_map, List.mem_filter, decide_eq_true_eq]
  constructor
  · rintro ⟨⟨caller, time, deed⟩, ⟨noted, rfl⟩, rfl⟩
    exact ⟨time, noted⟩
  · rintro ⟨time, noted⟩
    exact ⟨_, ⟨noted, rfl⟩, rfl⟩

/-- Along every course each caller's program is led by the caller's own deeds to what is left of it. A step of its own
adds the deed that leads on, and all other steps add nothing. -/
theorem Course.leadsTo [TokenNumber α] {k : String} {fair : Move ω → Scene α ω → Scene α ω → Prop}
    {w w' : Crowd α ω β} (course : Course k fair w w') (nobody : w.past = []) (i : Nat) :
    (w.callers i).LeadsTo (deedsOf i w'.past) (w'.callers i) := by
  induction course with
  | start =>
    rw [nobody]
    exact .start _
  | @step w₁ w₂ move _ step _ before =>
    have goesOn (j : Nat) (deed : Deed ω) (rest : Program ω β)
        (callers : w₂.callers = Function.update w₁.callers j rest) (past : w₂.past = ⟨j, w₁.now, deed⟩ :: w₁.past)
        (mine : (w₁.callers j).LeadsTo [deed] rest) :
        (w.callers i).LeadsTo (deedsOf i w₂.past) (w₂.callers i) := by
      rw [callers, past]
      by_cases same : j = i
      · subst same
        rw [Function.update_self, deedsOf_mine]
        exact before.trans mine
      · rw [Function.update_of_ne (Ne.symm same), deedsOf_other same]
        exact before
    cases step with
    | answered j held c next store reply ready _ =>
      exact goesOn j _ _ rfl rfl (ready ▸ .answered held c next reply [] _ (.start _))
    | failed j held c next why ready =>
      exact goesOn j _ _ rfl rfl (ready ▸ .answered held c next (.error why) [] _ (.start _))
    | broke j held c next store why ready _ => exact goesOn j _ _ rfl rfl (ready ▸ .broke held c next why)
    | named j next name ready _ => exact goesOn j _ _ rfl rfl (ready ▸ .named next name [] _ (.start _))
    | worked j held next answer ready =>
      exact goesOn j _ _ rfl rfl (ready ▸ .worked held next answer [] _ (.start _))
    | outside c => exact before
    | purge => exact before
    | wait later ahead => exact before

end Crowd

end Turnstile
