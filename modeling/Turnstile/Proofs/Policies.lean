import Mathlib.Tactic.SplitIfs
import Turnstile.Service
import Turnstile.Proofs.Table

/-!
Only usable policies get into a table, so a request can only meet a usable one. Settings that are accepted have a
table, and with it a service.
-/

namespace Turnstile

namespace Policy

variable {p : Policy}

/-- What is usable in a policy that can be used: its limit has no fault, and the capacity covers its cost. -/
theorem usable_limit (usable : p.fault? = none) : p.limit.fault? = none ∧ p.cost ≤ p.limit.capacity := by
  unfold fault? at usable
  split at usable
  · cases usable
  · rename_i fine
    split_ifs at usable with above
    exact ⟨fine, UInt32.not_lt.mp above⟩

end Policy

namespace Policies

/-- Every policy in the table can be used. -/
structure Usable (t : Policies) : Prop where
  otherwise : t.otherwise.fault? = none
  routes : ∀ name p, t.routes.find? name = some p → p.fault? = none

variable {t t' : Policies}

/-- What holds of every policy in the table holds of the one that a request meets. It is the one of its route, or the
one for all others. -/
theorem resolve_holds {motive : Policy → Prop} (otherwise : motive t.otherwise)
    (routes : ∀ name p, t.routes.find? name = some p → motive p) (path method : String) :
    motive (t.resolve path method) := by
  unfold Policies.resolve
  cases found : t.routes.find? (.of path method) with
  | none => exact otherwise
  | some p => exact routes _ p found

/-- A request meets a usable policy, whatever its path and method are. -/
theorem Usable.resolve (usable : t.Usable) (path method : String) : (t.resolve path method).fault? = none :=
  resolve_holds usable.otherwise usable.routes path method

/-- A table starts usable: its policy for all other routes was checked, and there are no routes in it yet. -/
theorem new_usable {otherwise : Policy} (made : new otherwise = .ok t) : t.Usable := by
  unfold new at made
  split at made
  · cases made
  · rename_i fine
    cases made
    exact ⟨fine, fun name p found => by cases found⟩

/-- Inserting a route leaves a table usable, as the new policy is checked before it gets in. -/
theorem Usable.insert (usable : t.Usable) {path method : String} {p : Policy}
    (inserted : t.insert path method p = .ok t') : t'.Usable := by
  unfold Policies.insert at inserted
  split at inserted
  · cases inserted
  · rename_i fine
    cases inserted
    refine ⟨usable.otherwise, fun name other found => ?_⟩
    rw [Table.find?_insert] at found
    split_ifs at found
    · cases found
      exact fine
    · exact usable.routes name other found

/-- Inserting rules leaves a table usable, one rule after the other. -/
theorem Usable.insertRules (usable : t.Usable) {rules : List RouteRule}
    (inserted : t.insertRules rules = .ok t') : t'.Usable := by
  induction rules generalizing t with
  | nil =>
    cases inserted
    exact usable
  | cons rule rest inductionHypothesis =>
    unfold Policies.insertRules at inserted
    split at inserted
    · rename_i next first
      exact inductionHypothesis (usable.insert first) inserted
    · cases inserted

/-- A table that is made of rules is usable: it starts so and stays so with each rule. -/
theorem ofRules_usable {otherwise : Policy} {rules : RouteRules} (made : ofRules otherwise rules = .ok t) :
    t.Usable := by
  unfold ofRules at made
  split at made
  · rename_i empty started
    exact (new_usable started).insertRules made
  · cases made

end Policies

namespace Settings

variable {s : Settings} {files : Files}

/-- The table that settings ask for is usable, as it is made of rules: that of the payments route, and behind it those
of the file. -/
theorem policies_usable {t : Policies} (made : s.policies files = .ok t) : t.Usable := by
  unfold policies at made
  cases read : s.fileRules files with
  | error why => rw [read] at made; cases made
  | ok rules =>
    rw [read] at made
    have made : (Policies.ofRules s.policy ⟨paymentsRule :: rules⟩).mapError Policies.Fault.refusal = .ok t := made
    cases table : Policies.ofRules s.policy ⟨paymentsRule :: rules⟩ with
    | error why => rw [table] at made; cases made
    | ok t' =>
      rw [table] at made
      cases made
      exact Policies.ofRules_usable table

/-- What is accepted: lives and intervals that last, and policies that can be used. -/
structure Accepted (s : Settings) (t : Policies) : Prop where
  records : 0 < s.recordLife.nanos
  locks : 0 < s.lockLife.nanos
  sweeps : 0 < s.sweepInterval.nanos
  usable : t.Usable

/-- Settings that are accepted have a table of policies. The check makes the very table that the service is given later,
and before that it asks whether the spans last and the settings' own policy can be used. -/
theorem accepted_of_check (accepted : s.check files = .ok ()) :
    ∃ t, s.policies files = .ok t ∧ s.Accepted t := by
  unfold check at accepted
  split at accepted
  · cases accepted
  · rename_i fine
    split at accepted
    · cases accepted
    · cases made : s.policies files with
      | error why => rw [made] at accepted; cases accepted
      | ok t =>
        have lasts {name : String} {span : Span} (fine : spanFault? name span = none) : 0 < span.nanos := by
          unfold spanFault? Span.isZero at fine
          split_ifs at fine with nothing
          simp only [decide_eq_true_eq] at nothing
          omega
        simp only [fault?, Option.or_eq_none_iff] at fine
        obtain ⟨-, -, records, locks, sweeps⟩ := fine
        refine ⟨t, rfl, ?_⟩
        exact {
          records := lasts records
          locks := lasts locks
          sweeps := lasts sweeps
          usable := policies_usable made }

end Settings

/-- The service that accepted settings ask for has that table, and there is nothing more that could fail. -/
theorem Service.ofSettings_ok {s : Settings} {files : Settings.Files} {t : Policies} (backend : String)
    (made : s.policies files = .ok t) :
    Service.ofSettings s files backend = .ok ⟨s.guard, t, s.trustHeaders, backend⟩ := by
  unfold ofSettings
  rw [made]
  rfl

end Turnstile
