import Turnstile.Proofs.Bucket.Retry
import Turnstile.Proofs.Policies
import Turnstile.Redis.Dialogue

/-!
What is behind a table of policies.

A table is made from one policy, from one policy and rules, or from settings, and from then on policies are set in it, some
of which are refused. The main statement is that whatever a table of this kind resolves a request to can be used: it passes
every check, although a rule is completed field by field and may be fine on its own while its policy is not. Two things
follow for whoever asks for admission. No answer of the throttle says that something is misconfigured, whatever is in the
store. And no refill divides by zero, neither in doubles nor in the milliseconds that a server counts in.
-/

namespace Turnstile

open Binary64

namespace Policy

/-- A policy that passes every check. -/
structure Checked (p : Policy) : Prop where
  faultless : p.fault? = none
  capacity : p.limit.capacity ≠ 0
  refill : p.limit.refill ≠ 0
  period : 0 < p.limit.period.nanos
  coverable : p.cost ≤ p.limit.capacity
  above : Binary64.lt 0 p.threshold = true
  within : p.threshold.le 1 = true
  number : p.threshold.isNaN = false

/-- A policy without a fault passes every check, for a fault is the first check that fails, and each field of `Checked`
is one of them. -/
theorem checked_of_fault {p : Policy} (faultless : p.fault? = none) : p.Checked := by
  obtain ⟨usable, coverable⟩ := usable_limit faultless
  have share : isShare p.threshold = true := by
    have fine := faultless
    unfold fault? at fine
    rw [usable, if_neg (UInt32.not_lt.mpr coverable)] at fine
    by_contra beyond
    rw [if_pos (by simpa using beyond)] at fine
    cases fine
  obtain ⟨above, within⟩ := Bool.and_eq_true_iff.mp share
  have some : p.limit.capacity ≠ 0 := by
    intro none
    have fault := usable
    unfold Limit.fault? at fault
    rw [if_pos none] at fault
    cases fault
  obtain ⟨refills, lasts⟩ := Limit.usable_pos usable
  have refill : p.limit.refill ≠ 0 := by
    intro none
    rw [none] at refills
    exact absurd refills (by decide)
  have number : p.threshold.isNaN = false := by
    cases is : p.threshold with
    | nan negative =>
      rw [is] at within
      cases within
    | _ => rfl
  exact {
    faultless := faultless
    capacity := some
    refill := refill
    period := lasts
    coverable := coverable
    above := above
    within := within
    number := number }

end Policy

namespace Policies

/-- Sets the policy of a route in a table that is changed in place. -/
def put (path method : String) (p : Policy) : ExceptT Fault (StateM Policies) Unit := do
  match (← get).insert path method p with
  | .ok t => set t
  | .error fault => throw fault

/-- The tables there can be: made in one of three ways, and changed only by setting policies. -/
inductive Built : Policies → Prop
  | new {otherwise : Policy} {t : Policies} (made : Policies.new otherwise = .ok t) : Built t
  | rules {otherwise : Policy} {rules : RouteRules} {t : Policies} (made : ofRules otherwise rules = .ok t) : Built t
  | settings {s : Settings} {files : Settings.Files} {t : Policies} (made : s.policies files = .ok t) : Built t
  | put {t : Policies} (built : Built t) (path method : String) (p : Policy) : Built ((put path method p).run t).2

variable {t t' : Policies}

/-- To set a policy is to insert it, or to leave the table as it is: the table is written back only if the insertion
gave one. -/
theorem put_run (t : Policies) (path method : String) (p : Policy) :
    (put path method p).run t =
      match t.insert path method p with
      | .ok t' => (.ok (), t')
      | .error fault => (.error fault, t) := by
  have looked : (put path method p).run t =
      (match t.insert path method p with
        | .ok t' => (set t' : ExceptT Fault (StateM Policies) Unit)
        | .error fault => throw fault).run t := rfl
  rw [looked]
  cases t.insert path method p <;> rfl

/-- Every table that is built is usable. New tables and those of rules or settings have only policies that were checked,
and an insertion checks its own. -/
theorem Built.usable (built : t.Built) : t.Usable := by
  induction built with
  | new made => exact new_usable made
  | rules made => exact ofRules_usable made
  | settings made => exact Settings.policies_usable made
  | @put t _ path method p inductionHypothesis =>
    rw [put_run]
    cases inserted : t.insert path method p with
    | ok t' => exact inductionHypothesis.insert inserted
    | error fault => exact inductionHypothesis

/-- Whoever is refused a policy finds the table as it was, and is told what is wrong with the policy and on which route. -/
theorem put_refused {path method : String} {p : Policy} {fault : Fault}
    (refused : (put path method p).run t = (.error fault, t')) :
    t' = t ∧ ∃ cause, p.fault? = some cause ∧ fault = .route path method cause := by
  rw [put_run] at refused
  cases inserted : t.insert path method p with
  | ok done =>
    rw [inserted] at refused
    cases refused
  | error fault' =>
    rw [inserted] at refused
    cases refused
    unfold insert at inserted
    split at inserted
    · rename_i cause is
      cases inserted
      exact ⟨rfl, cause, is, rfl⟩
    · cases inserted

end Policies

namespace Redis

/-- A server that answers calls with the replies that are still to come. -/
def host (keyStart : String) : Host (List Reply) Empty where
  call c replies :=
    match dialogue keyStart c with
    | .error why => (replies, .error why)
    | .ok talk => (replies.drop (talk.play replies).1.length, .ok (talk.play replies).2)
  fresh replies := (replies, "")
  work replies := (replies, .cancelled)

/-- Whatever else it says, it does not say that something is misconfigured. -/
def Honest {α : Type} (answer : Except Failure α) : Prop := ∀ why, answer ≠ .error (.misconfigured why)

/-- A reply that is no number is told as a fault of the store, never as one of the settings. -/
theorem asNumber_honest (r : Reply) : Honest r.asNumber := by
  intro why same
  unfold Reply.asNumber Reply.misfit at same
  split at same
  · cases same
  · split at same
    · cases same
    · split at same <;> cases same

variable {α β : Type}

/-- An answer is honest about its faults if it has none. -/
theorem honest_ok (a : α) : Honest (.ok a) := by
  intro why same
  cases same

/-- Two honest parts make an honest whole, as the first fault is told. -/
theorem Honest.bind {answer : Except Failure α} {next : α → Except Failure β} (first : Honest answer)
    (then' : ∀ a, Honest (next a)) : Honest (answer >>= next) := by
  cases answer with
  | ok a => exact then' a
  | error failure =>
    intro why same
    cases same
    exact first why rfl

/-- So three numbers in a reply are read honestly, each of them. -/
theorem asThree_honest (r : Reply) : Honest r.asThree := by
  unfold Reply.asThree
  split
  · apply (asNumber_honest _).bind
    intro first
    apply (asNumber_honest _).bind
    intro second
    exact (asNumber_honest _).bind fun third => honest_ok _
  · intro why same
    cases same
  · intro why same
    cases same

/-- And a grant, which is made of three numbers. -/
theorem grantOf_honest (r : Reply) : Honest (grantOf r) := (asThree_honest r).bind fun _ => honest_ok _

namespace Dialogue

variable {read : Reply → Except Failure α} (reads : ∀ r, Honest (read r))
include reads

/-- The last reply of a script is read honestly, or an error of the server is told as such. -/
theorem concluding_honest (r : Reply) (replies : List Reply) : Honest ((concluding read r).play replies).2 := by
  unfold concluding
  split
  · intro why same
    cases same
  · exact reads r

/-- A script whose reply is read honestly is answered honestly, also where its text is sent first because the server
does not know it. -/
theorem run_honest (script : Script) (key : String) (arguments : List String) (replies : List Reply) :
    Honest ((run script key arguments read).play replies).2 := by
  unfold run
  simp only [play]
  split
  · simp only [play]
    split
    · intro why same
      cases same
    · exact concluding_honest reads _ _
  · exact concluding_honest reads _ _

end Dialogue

/-- Whatever a server replies, a take is never answered that something is misconfigured. Its script is run honestly, and
a limit that could not be sent breaks down before. -/
theorem take_honest (keyStart key : String) (limit : Limit) (cost : UInt32) (replies : List Reply) (why : String) :
    ((host keyStart).call (.take key limit cost) replies).2 ≠ .ok (.error (.misconfigured why)) := by
  simp only [host, dialogue]
  cases limit.keep with
  | error breakdown =>
    intro same
    cases same
  | ok span =>
    intro same
    exact Dialogue.run_honest grantOf_honest takeTokens (keyStart ++ key) _ replies why (Except.ok.inj same)

/-- The milliseconds that a server counts in are never none, so it never divides by a period of zero. -/
theorem wireMillis_pos (s : Span) : 0 < wireMillis s := Nat.le_max_left _ _

end Redis

/-- Tables only ever hold policies that can be used. Whatever a request is resolved to passes every check, and a policy that
is refused leaves the table as it was. So nobody who asks for admission is told that something is misconfigured, whatever
the store inside the process holds and whatever a server replies, and what a refill divides by is never zero. -/
theorem built_tables_are_usable {t : Policies} (built : t.Built) :
    (∀ path method, (t.resolve path method).Checked) ∧
    (∀ path method p fault t', (Policies.put path method p).run t = (.error fault, t') → t' = t) ∧
    (∀ path method (throttle : Throttle) key why,
      (∀ (s : Store Binary64) now,
        (throttle.ruling s now key (t.resolve path method)).2 ≠ .finished (.error (.misconfigured why))) ∧
      ∀ keyStart replies, ((throttle.pass key (t.resolve path method) : Attempt Empty Admission).run.play
        (Redis.host keyStart) replies).2 ≠ .finished (.error (.misconfigured why))) ∧
    ∀ path method, (∃ seconds : ℚ, 0 < seconds ∧
        (secondsNumber (t.resolve path method).limit.period.nanos : Binary64).Is seconds) ∧
      0 < Redis.wireMillis (t.resolve path method).limit.period := by
  have usable := built.usable
  have checked (path method : String) := Policy.checked_of_fault (usable.resolve path method)
  refine ⟨checked, ?_, ?_, ?_⟩
  · intro path method p fault t' refused
    exact (Policies.put_refused refused).1
  · intro path method throttle key why
    obtain ⟨fine, coverable⟩ := Policy.usable_limit (checked path method).faultless
    constructor
    · intro s now told
      have failed := Throttle.misconfigured_of_store fine coverable told
      cases Store.perform_failure failed
    · intro keyStart replies told
      exact Redis.take_honest _ _ _ _ _ _ (Throttle.misconfigured_of_store fine coverable told)
  · intro path method
    have lasts := (checked path method).period
    refine ⟨⟨_, ?_, secondsNumber_is (t.resolve path method).limit.period.bounded⟩, Redis.wireMillis_pos _⟩
    exact lt_of_lt_of_le (by positivity) (roundedSeconds_pos lasts)

/-- Five tokens at most, two more every ten seconds, and two for each request. -/
def smallPolicy : Policy := ⟨⟨5, 2, .ofSeconds 10⟩, 2, .div 1 2, none⟩

/-- A rule that allows fewer tokens at once and leaves everything else as it is. -/
def smallerRule : RouteRule := { RouteRule.plain "/a" "get" with capacity := some 3 }

/-- The table of that policy and that rule. -/
def smallTable : Policies :=
  ⟨smallPolicy, ⟨[(.of "/a" "get", { smallPolicy with limit := { smallPolicy.limit with capacity := 3 } })]⟩⟩

/-- A policy that costs more than its bucket holds is refused, then one that costs as much is set; both kinds of routes
meet a checked policy. -/
theorem built_tables_are_usable_smallTable :
    ∃ t : Policies, (Policies.put "/b" "POST" { smallPolicy with cost := 6 }).run smallTable =
        (.error (.route "/b" "POST" (.costAboveCapacity 6 5)), smallTable) ∧
      (Policies.put "/b" "POST" { smallPolicy with cost := 5 }).run smallTable = (.ok (), t) ∧
      (t.resolve "/b/" "post").Checked ∧ (t.resolve "/b/" "post").cost = 5 ∧
      (t.resolve "/a" "GET").Checked ∧ (t.resolve "/a" "GET").limit.capacity = 3 := by
  have base : smallPolicy.fault? = none := by decide +kernel
  have smaller : (smallerRule.complete smallPolicy).fault? = none := by decide +kernel
  have dear : ({ smallPolicy with cost := 6 } : Policy).fault? = some (.costAboveCapacity 6 5) := by decide +kernel
  have fair : ({ smallPolicy with cost := 5 } : Policy).fault? = none := by decide +kernel
  have made : Policies.ofRules smallPolicy ⟨[smallerRule]⟩ = .ok smallTable := by
    unfold Policies.ofRules Policies.new
    rw [base]
    simp only [Policies.insertRules, Policies.insert, smaller]
    rfl
  have refused : (Policies.put "/b" "POST" { smallPolicy with cost := 6 }).run smallTable =
      (.error (.route "/b" "POST" (.costAboveCapacity 6 5)), smallTable) := by
    rw [Policies.put_run]
    simp only [Policies.insert, dear]
  have placed : (Policies.put "/b" "POST" { smallPolicy with cost := 5 }).run smallTable =
      (.ok (), ((Policies.put "/b" "POST" { smallPolicy with cost := 5 }).run smallTable).2) := by
    rw [Policies.put_run]
    simp only [Policies.insert, fair]
  have built := (Policies.Built.rules made).put "/b" "POST" { smallPolicy with cost := 5 }
  obtain ⟨checked, -⟩ := built_tables_are_usable built
  exact ⟨_, refused, placed, checked _ _, by decide +kernel, checked _ _, by decide +kernel⟩

end Turnstile
