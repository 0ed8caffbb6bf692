import Turnstile.Proofs.Crowd

/-!
Rules of conduct for the callers of a crowd.

A conduct says what holds of every scene, what a caller may do next, and what each caller can rely on while
others move. Its own fields prove that whoever does only what it may keeps what holds and gives all others what
they rely on. A program is safe for a caller at a scene when everything it will do is allowed, however the
others move in between, and its result meets a postcondition that outlives their moves. Safety is defined along
the tree of the program, so a program made of parts is shown safe part by part.

The main statement is that in every fair course of a crowd whose callers all start out safe, the invariant holds
and each caller stays safe with what is left of its program.
-/

namespace Turnstile

/-- What a caller is about to do. -/
inductive Doing where
  | calling (c : Call)
  | naming
  | working
  | breaking

/-- What somebody was about to do who did this. -/
def Deed.doing {ω : Type} : Deed ω → Doing
  | .called c _ => .calling c
  | .broke c _ => .calling c
  | .named _ => .naming
  | .worked _ => .working

/-- Rules of conduct towards one idempotency key. -/
structure Conduct (α ω : Type) [TokenNumber α] where
  key : String
  /-- Which moves are looked at, from which scene to which. -/
  fair : Move ω → Scene α ω → Scene α ω → Prop
  /-- What holds of every scene. -/
  inv : Scene α ω → Prop
  /-- What a caller may do next. -/
  may : Nat → Scene α ω → Doing → Prop
  /-- What a caller relies on while others move. -/
  rely : Nat → Scene α ω → Scene α ω → Prop
  /-- While others move, time goes on and their notes come on top. -/
  onward : ∀ i v v', rely i v v' → v.Onward i v'
  rely_refl : ∀ i v, rely i v v
  rely_trans : ∀ i a b c, rely i a b → rely i b c → rely i a c
  /-- A deed that is allowed keeps the invariant, and what everybody else relies on. -/
  own : ∀ i deed v v', inv v → may i v deed.doing → Scene.Own key i deed v v' → fair (.own i deed) v v' →
    inv v' ∧ ∀ j, j ≠ i → rely j v v'
  outside : ∀ c v v', inv v → Scene.Outside key c v v' → fair (.outside c) v v' →
    inv v' ∧ ∀ j, rely j v v'
  waited : ∀ later v, inv v → v.now ≤ later → fair (.wait later) v (v.waited later) →
    inv (v.waited later) ∧ ∀ j, rely j v (v.waited later)
  /-- A caller may break down over every call that it may make. -/
  broke : ∀ i c why v v', inv v → may i v (.calling c) → Scene.Own key i (.broke c why) v v' →
    fair (.own i (.broke c why)) v v' → ∀ v'', rely i v' v'' → inv v'' → may i v'' .breaking

namespace Conduct

variable {α ω β γ : Type} [TokenNumber α]

/-- From a scene on, as long as only others move. -/
def Henceforth (d : Conduct α ω) (i : Nat) (v : Scene α ω) (holds : Scene α ω → Prop) : Prop :=
  ∀ v', d.rely i v v' → d.inv v' → holds v'

/-- Right after a deed. -/
def Upon (d : Conduct α ω) (i : Nat) (deed : Deed ω) (v : Scene α ω) (holds : Scene α ω → Prop) : Prop :=
  ∀ v', Scene.Own d.key i deed v v' → d.fair (.own i deed) v v' → d.inv v' → holds v'

/-- Whenever the caller's turn comes it may go on, and whatever answer it gets, things are right after it. -/
def Turn {ρ : Type} (d : Conduct α ω) (i : Nat) (v : Scene α ω) (doing : Doing) (deed : ρ → Deed ω)
    (next : ρ → Scene α ω → Prop) : Prop :=
  d.Henceforth i v fun v => d.may i v doing ∧ ∀ answer, d.Upon i (deed answer) v (next answer)

/-- A program that does only what its caller may do, and ends with a result that stays as required. -/
def Safe (d : Conduct α ω) (i : Nat) (post : Scene α ω → β → Prop) : Program ω β → Scene α ω → Prop
  | .done a, v => d.Henceforth i v fun v => post v a
  | .broken _ _, v => d.Henceforth i v fun v => d.may i v .breaking
  | .call _ c next, v => d.Turn i v (.calling c) (.called c) fun reply v => Safe d i post (next reply) v
  | .fresh next, v => d.Turn i v .naming .named fun name v => Safe d i post (next name) v
  | .work _ next, v => d.Turn i v .working .worked fun answer v => Safe d i post (next answer) v

variable {d : Conduct α ω} {i : Nat}

/-- What holds from a scene on holds from every later one, as the moves of others add up. -/
theorem Henceforth.later {v v' : Scene α ω} {holds : Scene α ω → Prop} (now : d.Henceforth i v holds)
    (moved : d.rely i v v') : d.Henceforth i v' holds :=
  fun v'' onward invariant => now v'' (d.rely_trans i v v' v'' moved onward) invariant

/-- What holds from a scene on holds there, because the others may not have moved at all. -/
theorem Henceforth.here {v : Scene α ω} {holds : Scene α ω → Prop} (now : d.Henceforth i v holds)
    (invariant : d.inv v) : holds v :=
  now v (d.rely_refl i v) invariant

/-- A turn may be followed by less: what the caller may do next and when it may do so stay as they were. -/
theorem Turn.mono {ρ : Type} {v : Scene α ω} {doing : Doing} {deed : ρ → Deed ω}
    {next next' : ρ → Scene α ω → Prop} (turn : d.Turn i v doing deed next)
    (implies : ∀ answer v, next answer v → next' answer v) : d.Turn i v doing deed next' := by
  intro v' moved invariant
  obtain ⟨allowed, onward⟩ := turn v' moved invariant
  exact ⟨allowed, fun answer v'' did fair kept => implies answer v'' (onward answer v'' did fair kept)⟩

/-- A safe program stays safe while others move, for safety speaks of all that others may do before the next step. -/
theorem Safe.later {post : Scene α ω → β → Prop} {p : Program ω β} {v v' : Scene α ω}
    (safe : d.Safe i post p v) (moved : d.rely i v v') : d.Safe i post p v' := by
  cases p <;> exact Henceforth.later safe moved

/-- It is enough that a program is safe whenever the caller's turn comes, since each of its steps waits for that turn. -/
theorem safe_of_henceforth {post : Scene α ω → β → Prop} {p : Program ω β} {v : Scene α ω}
    (turns : d.Henceforth i v fun v => d.Safe i post p v) : d.Safe i post p v := by
  cases p <;>
    exact fun v' moved invariant => Henceforth.here (turns v' moved invariant) invariant

/-- A safe program has ended as required, or may do something next. -/
theorem Safe.next {post : Scene α ω → β → Prop} {p : Program ω β} {v : Scene α ω} (safe : d.Safe i post p v)
    (invariant : d.inv v) : (∃ a, p = .done a ∧ post v a) ∨ ∃ doing, d.may i v doing := by
  cases p with
  | done a => exact .inl ⟨a, rfl, Henceforth.here safe invariant⟩
  | broken held why => exact .inr ⟨_, Henceforth.here safe invariant⟩
  | call held c next => exact .inr ⟨_, (Henceforth.here safe invariant).1⟩
  | fresh next => exact .inr ⟨_, (Henceforth.here safe invariant).1⟩
  | work held next => exact .inr ⟨_, (Henceforth.here safe invariant).1⟩

/-- A safe program meets a weaker postcondition, too. The induction goes along the program, and only its ends are looked
at. -/
theorem Safe.weaken {post weaker : Scene α ω → β → Prop} {p : Program ω β} {v : Scene α ω}
    (safe : d.Safe i post p v) (implies : ∀ v a, d.inv v → post v a → weaker v a) :
    d.Safe i weaker p v := by
  induction p generalizing v with
  | done a => exact fun v' moved invariant => implies v' a invariant (safe v' moved invariant)
  | broken held why => exact safe
  | call held c next inductionHypothesis => exact Turn.mono safe fun reply _ => inductionHypothesis reply
  | fresh next inductionHypothesis => exact Turn.mono safe fun name _ => inductionHypothesis name
  | work held next inductionHypothesis => exact Turn.mono safe fun answer _ => inductionHypothesis answer

/-- Two programs one after the other: what the first leaves is where the second is safe. At the end of the first one the
others may move before the second begins. -/
theorem Safe.bind {post : Scene α ω → γ → Prop} {p : Program ω β} {f : β → Program ω γ} {v : Scene α ω}
    (safe : d.Safe i (fun v a => d.Safe i post (f a) v) p v) : d.Safe i post (p.bind f) v := by
  induction p generalizing v with
  | done a => exact safe_of_henceforth safe
  | broken held why => exact safe
  | call held c next inductionHypothesis => exact Turn.mono safe fun reply _ => inductionHypothesis reply
  | fresh next inductionHypothesis => exact Turn.mono safe fun name _ => inductionHypothesis name
  | work held next inductionHypothesis => exact Turn.mono safe fun answer _ => inductionHypothesis answer

/-- Telling the lease that is held changes nothing of what a program does, so it stays safe. -/
theorem Safe.holding {post : Scene α ω → β → Prop} {p : Program ω β} {v : Scene α ω} (lease : Lease)
    (safe : d.Safe i post p v) : d.Safe i post (p.holding lease) v := by
  induction p generalizing v with
  | done a => exact safe
  | broken held why => exact safe
  | call held c next inductionHypothesis => exact Turn.mono safe fun reply _ => inductionHypothesis reply
  | fresh next inductionHypothesis => exact Turn.mono safe fun name _ => inductionHypothesis name
  | work held next inductionHypothesis => exact Turn.mono safe fun answer _ => inductionHypothesis answer

/-- A deed of a safe caller keeps the invariant, gives all others what they rely on, and leaves the caller itself safe
with the rest of its program. The first two are what the conduct proves of every deed that is allowed. -/
theorem Turn.taken {ρ : Type} {v v' : Scene α ω} {doing : Doing} {deed : ρ → Deed ω}
    {next : ρ → Scene α ω → Prop} (turn : d.Turn i v doing deed next) (invariant : d.inv v) (answer : ρ)
    (is : (deed answer).doing = doing) (did : Scene.Own d.key i (deed answer) v v')
    (fair : d.fair (.own i (deed answer)) v v') :
    d.inv v' ∧ (∀ j, j ≠ i → d.rely j v v') ∧ next answer v' := by
  obtain ⟨allowed, onward⟩ := Henceforth.here turn invariant
  obtain ⟨kept, rely⟩ := d.own i (deed answer) v v' invariant (is ▸ allowed) did fair
  exact ⟨kept, rely, onward answer v' did fair kept⟩

/-- What a safe caller does next it may do, as the first step of its program is what safety speaks of. -/
theorem Safe.allowed {w w' : Crowd α ω β} {deed : Deed ω} {post : Scene α ω → β → Prop}
    (safe : d.Safe i post (w.callers i) (w.scene d.key)) (invariant : d.inv (w.scene d.key))
    (step : w.Step (.own i deed) w') : d.may i (w.scene d.key) deed.doing := by
  cases step with
  | answered _ held c next store reply ready performed =>
    rw [ready] at safe
    exact (Henceforth.here safe invariant).1
  | failed _ held c next why ready =>
    rw [ready] at safe
    exact (Henceforth.here safe invariant).1
  | broke _ held c next store why ready performed =>
    rw [ready] at safe
    exact (Henceforth.here safe invariant).1
  | named _ next name ready new =>
    rw [ready] at safe
    exact (Henceforth.here safe invariant).1
  | worked _ held next answer ready =>
    rw [ready] at safe
    exact (Henceforth.here safe invariant).1

/-- One fair step keeps the invariant and leaves every caller safe with the rest of its program. The one who moved is
safe by its own tree, and all others by what they rely on. -/
theorem step_safe {w w' : Crowd α ω β} {move : Move ω} {post : Nat → Scene α ω → β → Prop}
    (step : w.Step move w') (fair : d.fair move (w.scene d.key) (w'.scene d.key))
    (distinct : w.store.entries.Distinct) (invariant : d.inv (w.scene d.key))
    (safe : ∀ i, d.Safe i (post i) (w.callers i) (w.scene d.key)) :
    d.inv (w'.scene d.key) ∧ ∀ i, d.Safe i (post i) (w'.callers i) (w'.scene d.key) := by
  have moves := (step.moves distinct d.key).1
  -- The one who moved is safe by its own tree, all others by what they rely on.
  have everybody (i : Nat) (rest : Program ω β) (callers : w'.callers = Function.update w.callers i rest)
      (rely : ∀ j, j ≠ i → d.rely j (w.scene d.key) (w'.scene d.key))
      (mine : d.Safe i (post i) rest (w'.scene d.key)) (j : Nat) :
      d.Safe j (post j) (w'.callers j) (w'.scene d.key) := by
    rw [callers]
    by_cases same : j = i
    · subst same
      rw [Function.update_self]
      exact mine
    · rw [Function.update_of_ne same]
      exact (safe j).later (rely j same)
  cases step with
  | answered i held c next store reply ready performed =>
    have turn := safe i
    rw [ready] at turn
    obtain ⟨kept, rely, mine⟩ := Turn.taken turn invariant reply rfl moves fair
    exact ⟨kept, everybody i _ rfl rely mine⟩
  | failed i held c next why ready =>
    have turn := safe i
    rw [ready] at turn
    obtain ⟨kept, rely, mine⟩ := Turn.taken turn invariant (.error why) rfl moves fair
    exact ⟨kept, everybody i _ rfl rely mine⟩
  | broke i held c next store why ready performed =>
    have turn := safe i
    rw [ready] at turn
    have allowed : d.may i (w.scene d.key) (.calling c) := (Henceforth.here turn invariant).1
    obtain ⟨kept, rely⟩ := d.own i (.broke c why) _ _ invariant allowed moves fair
    exact ⟨kept, everybody i _ rfl rely (d.broke i c why _ _ invariant allowed moves fair)⟩
  | named i next name ready new =>
    have turn := safe i
    rw [ready] at turn
    obtain ⟨kept, rely, mine⟩ := Turn.taken turn invariant name rfl moves fair
    exact ⟨kept, everybody i _ rfl rely mine⟩
  | worked i held next answer ready =>
    have turn := safe i
    rw [ready] at turn
    obtain ⟨kept, rely, mine⟩ := Turn.taken turn invariant answer rfl moves fair
    exact ⟨kept, everybody i _ rfl rely mine⟩
  | outside c =>
    obtain ⟨kept, rely⟩ := d.outside c _ _ invariant moves fair
    exact ⟨kept, fun i => (safe i).later (rely i)⟩
  | purge =>
    have same : Crowd.scene { w with store := (w.store.purge w.now).1 } d.key = w.scene d.key := moves
    rw [same]
    exact ⟨invariant, safe⟩
  | wait later ahead =>
    obtain ⟨_, same⟩ := moves
    rw [same] at fair ⊢
    obtain ⟨kept, rely⟩ := d.waited later _ invariant ahead fair
    exact ⟨kept, fun i => (safe i).later (rely i)⟩

/-- Along every fair course of callers that start out safe, the invariant holds and all stay safe. This is the induction
on which every statement about interleavings rests. -/
theorem course_safe {w w' : Crowd α ω β} {post : Nat → Scene α ω → β → Prop}
    (course : Crowd.Course d.key d.fair w w') (distinct : w.store.entries.Distinct)
    (invariant : d.inv (w.scene d.key))
    (safe : ∀ i, d.Safe i (post i) (w.callers i) (w.scene d.key)) :
    w'.store.entries.Distinct ∧ d.inv (w'.scene d.key) ∧
      ∀ i, d.Safe i (post i) (w'.callers i) (w'.scene d.key) := by
  induction course with
  | start => exact ⟨distinct, invariant, safe⟩
  | step _ step fair before =>
    obtain ⟨distinct, invariant, safe⟩ := before
    exact ⟨(step.moves distinct d.key).2, step_safe step fair distinct invariant safe⟩

/-- Callers who keep to what they may do, while nothing is asked of the scenes. -/
def permitting (key : String) (fair : Move ω → Scene α ω → Scene α ω → Prop) (may : Nat → Scene α ω → Doing → Prop)
    (breaks : ∀ i v, may i v .breaking) : Conduct α ω where
  key
  fair
  inv _ := True
  may
  rely := Scene.Onward
  onward _ _ _ moved := moved
  rely_refl := Scene.Onward.refl
  rely_trans _ _ _ _ := Scene.Onward.trans
  own _ _ _ _ _ _ did _ := ⟨trivial, fun _ other => did.onward other⟩
  outside _ _ _ _ moved _ := ⟨trivial, fun _ => moved.onward⟩
  waited _ _ _ ahead _ := ⟨trivial, fun _ => Scene.onward_waited ahead⟩
  broke i _ _ _ _ _ _ _ _ v _ _ := breaks i v

/-! A condition that every move keeps. -/

/-- No move ends it that is allowed and fair. -/
structure Keeps (d : Conduct α ω) (holds : Scene α ω → Prop) : Prop where
  own : ∀ i deed v v', d.inv v → d.may i v deed.doing → Scene.Own d.key i deed v v' →
    d.fair (.own i deed) v v' → holds v → holds v'
  outside : ∀ c v v', Scene.Outside d.key c v v' → d.fair (.outside c) v v' → holds v → holds v'
  waited : ∀ later v, v.now ≤ later → holds v → holds (v.waited later)

/-- The same conduct with one more condition on every scene. -/
def keeping (d : Conduct α ω) {holds : Scene α ω → Prop} (keeps : d.Keeps holds) : Conduct α ω where
  key := d.key
  fair := d.fair
  inv v := d.inv v ∧ holds v
  may := d.may
  rely := d.rely
  onward := d.onward
  rely_refl := d.rely_refl
  rely_trans := d.rely_trans
  own i deed v v' invariant allowed did fair :=
    have ⟨kept, rely⟩ := d.own i deed v v' invariant.1 allowed did fair
    ⟨⟨kept, keeps.own i deed v v' invariant.1 allowed did fair invariant.2⟩, rely⟩
  outside c v v' invariant moved fair :=
    have ⟨kept, rely⟩ := d.outside c v v' invariant.1 moved fair
    ⟨⟨kept, keeps.outside c v v' moved fair invariant.2⟩, rely⟩
  waited later v invariant ahead fair :=
    have ⟨kept, rely⟩ := d.waited later v invariant.1 ahead fair
    ⟨⟨kept, keeps.waited later v ahead invariant.2⟩, rely⟩
  broke i c why v v' invariant allowed did fair v'' moved after :=
    d.broke i c why v v' invariant.1 allowed did fair v'' moved after.1

/-- Whoever is safe stays so when more is known of every scene, for the conduct asks no more of its callers. -/
theorem Safe.keeping {post : Scene α ω → β → Prop} {p : Program ω β} {v : Scene α ω} (safe : d.Safe i post p v)
    {holds : Scene α ω → Prop} (keeps : d.Keeps holds) : (d.keeping keeps).Safe i post p v := by
  have turns {ρ : Type} {v : Scene α ω} {doing : Doing} {deed : ρ → Deed ω} {next next' : ρ → Scene α ω → Prop}
      (turn : d.Turn i v doing deed next) (implies : ∀ answer v, next answer v → next' answer v) :
      (d.keeping keeps).Turn i v doing deed next' := by
    intro v' moved invariant
    obtain ⟨allowed, onward⟩ := turn v' moved invariant.1
    exact ⟨allowed, fun answer v'' did fair kept => implies answer v'' (onward answer v'' did fair kept.1)⟩
  induction p generalizing v with
  | done a => exact fun v' moved invariant => safe v' moved invariant.1
  | broken held why => exact fun v' moved invariant => safe v' moved invariant.1
  | call held c next inductionHypothesis => exact turns safe fun reply _ => inductionHypothesis reply
  | fresh next inductionHypothesis => exact turns safe fun name _ => inductionHypothesis name
  | work held next inductionHypothesis => exact turns safe fun answer _ => inductionHypothesis answer

/-- A condition that every move keeps holds along every fair course, from wherever it held once. -/
theorem course_keeps {w w' : Crowd α ω β} {post : Nat → Scene α ω → β → Prop} {holds : Scene α ω → Prop}
    (keeps : d.Keeps holds) (course : Crowd.Course d.key d.fair w w') (distinct : w.store.entries.Distinct)
    (invariant : d.inv (w.scene d.key)) (safe : ∀ i, d.Safe i (post i) (w.callers i) (w.scene d.key))
    (now : holds (w.scene d.key)) : holds (w'.scene d.key) := by
  obtain ⟨-, ⟨-, kept⟩, -⟩ :=
    (d.keeping keeps).course_safe course distinct ⟨invariant, now⟩ fun i => (safe i).keeping keeps
  exact kept

end Conduct

end Turnstile
