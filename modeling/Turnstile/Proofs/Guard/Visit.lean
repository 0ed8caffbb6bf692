import Turnstile.Proofs.Crowd.Play
import Turnstile.Proofs.Guard.Passage

/-!
Visits: guarded calls on idempotent routes that all present one idempotency key.

A visit is admitted, and then it is about its key. Whatever conduct a statement is about, it is enough that the
visitor follows it at the calls of its bucket and from then on as it looks its key up. Other callers may have a key
made, look it up or remove its record; each of these is a role of its own.
-/

namespace Turnstile

variable {α τ : Type}

/-- A guarded call on an idempotent route. -/
structure Visit (τ : Type) where
  client : String
  path : String
  method : String
  policy : Policy
  idempotent : policy.origin.isSome = true
  codec : Codec τ

/-- The bucket that a visit is charged to. -/
def Visit.bucket (visit : Visit τ) : BucketKey := .of visit.client visit.path visit.method

/-- What a visitor who presents a key does. The operation answers a result or a failure. -/
def Visit.program (g : Guard) (k : String) (visit : Visit τ) :
    Program (Except Failure τ) (Except Failure (Guarded τ)) :=
  (g.run visit.codec ⟨visit.bucket, visit.policy, some k⟩ Attempt.work).run

/-- A visit as a guarded call. -/
def Visit.passage (k : String) (visit : Visit τ) : Passage τ :=
  ⟨visit.client, visit.path, visit.method, visit.policy, some k, visit.codec⟩

/-- A call at the bucket of a visit is at no record and at no lock. -/
theorem Visit.bucket_elsewhere {visit : Visit τ} {c : Call} (touched : c.key? = some visit.bucket.text) (k : String) :
    c.key? ≠ some (recordKey k) ∧ c.key? ≠ some (lockKey k) :=
  Turnstile.bucket_elsewhere touched k

/-- A visit: admission first, then the key. It is a passage on an idempotent route with a key, so of the ways that a
passage can take only one is left. -/
theorem Conduct.meets_visit [TokenNumber α] {d : Conduct α (Except Failure τ)} {i : Nat}
    {v : Scene α (Except Failure τ)} {holds : Scene α (Except Failure τ) → Prop}
    {won : Scene α (Except Failure τ) → Guarded τ → Prop} {lost : Scene α (Except Failure τ) → Failure → Prop}
    (g : Guard) (k : String) (visit : Visit τ) (lasting : d.Lasting i holds) (now : holds v)
    (allowed : ∀ v c, holds v → d.inv v → c.key? = some visit.bucket.text → d.may i v (.calling c))
    (breaks : ∀ v, holds v → d.inv v → d.may i v .breaking)
    (kept : ∀ v v' c reply, holds v → c.key? = some visit.bucket.text →
      Scene.Own d.key i (.called c reply) v v' → holds v')
    (loses : ∀ v why, holds v → lost v why)
    (once : ∀ v origin admission, visit.policy.origin = some origin → holds v → d.inv v →
      d.Meets i (fun v a => won v ⟨a.1, a.2, admission⟩) lost (g.once visit.codec k origin Attempt.work) v) :
    d.Safe i (either won lost) (visit.program g k) v := by
  refine meets_passage g (visit.passage k) lasting now allowed breaks kept loses ?_ ?_
  · intro v admission is _ _
    have idempotent := visit.idempotent
    rw [show visit.policy.origin = none from is] at idempotent
    cases idempotent
  · intro v origin key admission is presented here invariant
    obtain rfl : k = key := Option.some.inj presented
    exact once v origin admission is here invariant

/-- What a caller has to do with keys. -/
inductive Role where
  /-- Presents the key with a guarded call. -/
  | visitor
  /-- Has a key made up and issued. -/
  | maker
  /-- Looks the key up. -/
  | reader
  /-- Removes the record of the key. -/
  | evictor
  deriving DecidableEq

/-- What a caller does in its role. The visit is that of a visitor. -/
def Role.program (g : Guard) (k : String) (visit : Visit τ) :
    Role → Program (Except Failure τ) (Except Failure (Option (Guarded τ)))
  | .visitor => do return (← visit.program g k).map some
  | .maker => do return (← g.registry.generate.run).map fun _ => none
  | .reader => do return (← (g.registry.lookup k).run).map fun _ => none
  | .evictor => do return (← (g.registry.evict k).run).map fun _ => none

/-- A role is safe when its part is. Only a visit has a result to answer with; what any other part wins is forgotten, so
nothing is asked of it but what its ending and its failures tell. -/
theorem Conduct.safe_role [TokenNumber α] {d : Conduct α (Except Failure τ)} {i : Nat}
    {v : Scene α (Except Failure τ)}
    {post : Scene α (Except Failure τ) → Except Failure (Option (Guarded τ)) → Prop} (g : Guard) (k : String)
    (visit : Visit τ) (role : Role)
    (visits : role = .visitor → d.Safe i (fun v outcome => post v (outcome.map some)) (visit.program g k) v)
    (makes : role = .maker →
      d.Meets i (fun v _ => post v (.ok none)) (fun v why => post v (.error why)) g.registry.generate v)
    (reads : role = .reader →
      d.Meets i (fun v _ => post v (.ok none)) (fun v why => post v (.error why)) (g.registry.lookup k) v)
    (evicts : role = .evictor →
      d.Meets i (fun v _ => post v (.ok none)) (fun v why => post v (.error why)) (g.registry.evict k) v) :
    d.Safe i post (role.program g k visit) v := by
  have quiet {β : Type} {p : Attempt (Except Failure τ) β}
      (meets : d.Meets i (fun v _ => post v (.ok none)) (fun v why => post v (.error why)) p v) :
      d.Safe i post (do return (← p.run).map fun _ => (none : Option (Guarded τ))) v := by
    refine Safe.bind (Safe.weaken meets.settled fun v₁ outcome _ told => ?_)
    cases outcome with
    | ok b => exact told
    | error why => exact told
  cases role with
  | visitor => exact Safe.bind (Safe.weaken (visits rfl).settled fun v₁ outcome _ told => told)
  | maker => exact quiet (makes rfl)
  | reader => exact quiet (reads rfl)
  | evictor => exact quiet (evicts rfl)

/-- A guard that keeps records for ten seconds and locks for five. -/
def briefGuard : Guard where
  throttle := ⟨.zero, .closed⟩
  registry := ⟨.ofSeconds 10⟩
  lockLife := .ofSeconds 5

/-- A visit whose result is a text. -/
def textVisit : Visit String where
  client := "10.0.0.1"
  path := "/api/payments"
  method := "POST"
  policy := ⟨⟨100, 100, .ofSeconds 60⟩, 1, 0, some .client⟩
  idempotent := rfl
  codec := .text

/-- A visit whose result is a text, on a route whose keys the server makes. -/
def madeVisit : Visit String := { textVisit with policy := { textVisit.policy with origin := some .server } }

/-- The text that a record's text keeps as a result. -/
def keptText? (text : String) : Option String :=
  match Record.read text with
  | .ok (.resolved (.text s)) => some s
  | _ => none

/-- A text that keeps a result is the text of a resolved record, with that result. -/
theorem read_of_keptText {text s : String} (kept : keptText? text = some s) :
    Record.read text = .ok (.resolved (.text s)) := by
  unfold keptText? at kept
  split at kept
  · rename_i is
    rw [is, Option.some.inj kept]
  · cases kept

/-- Visitors who all present one key to that guard. -/
def textVisitors (k : String) : Crowd Binary64 (Except Failure String) (Except Failure (Guarded String)) :=
  .atEmptyStore fun _ => textVisit.program briefGuard k

end Turnstile
