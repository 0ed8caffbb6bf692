import Mathlib.Data.Finset.Card
import Mathlib.Data.List.Dedup
import Turnstile.Proofs.Policies

/-!
Rules and the table that is made of them.

A table is made of a base policy and a list of rules by setting one policy after another. The main statement reads the table
off the list instead: it exists exactly if the base can be used and every rule can be used as a policy that is completed from
the base, a request meets the policy of the last rule for its route, and there are as many routes as the rules name. Routes
are compared in the form that bucket keys use, so that two spellings of one route are one route. What settings add is the
rule for payments in front of those of the file.
-/

namespace Turnstile

/-- The route that a rule is for. -/
def RouteRule.route (r : RouteRule) : RouteName := .of r.path r.method

/-- What makes a rule unusable as a policy, told with the route as it was written. -/
def RouteRule.fault? (base : Policy) (r : RouteRule) : Option Policies.Fault :=
  (r.complete base).fault?.map (.route r.path r.method)

/-- The last rule for a route, if there is one. -/
def lastRule? (rules : List RouteRule) (route : RouteName) : Option RouteRule :=
  (rules.filter (·.route = route)).getLast?

/-- One more rule at the end is the last for its own route and changes nothing for any other. -/
theorem lastRule?_append (rules : List RouteRule) (r : RouteRule) (route : RouteName) :
    lastRule? (rules ++ [r]) route = if r.route = route then some r else lastRule? rules route := by
  unfold lastRule?
  rw [List.filter_append]
  by_cases here : r.route = route <;> simp [here]

/-- A rule for a route that no later rule is for. -/
def IsLastFor (rules : List RouteRule) (route : RouteName) (r : RouteRule) : Prop :=
  ∃ earlier later, rules = earlier ++ r :: later ∧ r.route = route ∧ ∀ other ∈ later, other.route ≠ route

/-- A rule that no later one for its route follows is the one that is found. -/
theorem IsLastFor.found {rules : List RouteRule} {route : RouteName} {r : RouteRule} (last : IsLastFor rules route r) :
    lastRule? rules route = some r := by
  obtain ⟨earlier, later, rfl, here, others⟩ := last
  have nothing : later.filter (·.route = route) = [] := List.filter_eq_nil_iff.mpr (by simpa using others)
  unfold lastRule?
  rw [List.filter_append, List.filter_cons_of_pos (by simpa using here), nothing, List.getLast?_concat]

/-- There is no last rule for a route exactly if none is for it. -/
theorem lastRule?_eq_none_iff {rules : List RouteRule} {route : RouteName} :
    lastRule? rules route = none ↔ ∀ r ∈ rules, r.route ≠ route := by
  simp [lastRule?]

namespace Table

variable {κ β : Type} [DecidableEq κ]

/-- A table has as many pairs as there are keys that show something, because no key stands in two pairs. -/
theorem size_eq_card {t : Table κ β} (distinct : t.Distinct) {keys : Finset κ}
    (shows : ∀ k, k ∈ keys ↔ (t.find? k).isSome = true) : t.size = keys.card := by
  have same : keys = (t.pairs.map (·.1)).toFinset := by
    ext k
    rw [shows, List.mem_toFinset, List.mem_map, Option.isSome_iff_exists]
    constructor
    · rintro ⟨v, found⟩
      exact ⟨(k, v), mem_of_find? found, rfl⟩
    · rintro ⟨⟨k', v⟩, inside, rfl⟩
      exact ⟨v, (mem_pairs_iff distinct _ _).mp inside⟩
  rw [same, List.toFinset_card_of_nodup distinct, List.length_map, size]

end Table

namespace Policies

/-- The routes of the rules, set one after the other. -/
def routed (base : Policy) (rules : List RouteRule) : Table RouteName Policy :=
  rules.foldl (fun routes r => routes.insert r.route (r.complete base)) .empty

/-- One more rule at the end is inserted into the table of those before it. -/
theorem routed_append (base : Policy) (rules : List RouteRule) (r : RouteRule) :
    routed base (rules ++ [r]) = (routed base rules).insert r.route (r.complete base) :=
  List.foldl_concat _ _ _ _

/-- No route stands twice in the table of rules, as an insertion replaces what stands there. -/
theorem routed_distinct (base : Policy) (rules : List RouteRule) : (routed base rules).Distinct := by
  induction rules using List.reverseRecOn with
  | nil => exact Table.distinct_empty
  | append_singleton rules r inductionHypothesis =>
    rw [routed_append]
    exact Table.distinct_insert _ inductionHypothesis _ _

/-- A route has the policy of the last rule for it. The induction is from the end of the list, where the last insertion
decides for its own route. -/
theorem find?_routed (base : Policy) (rules : List RouteRule) (route : RouteName) :
    (routed base rules).find? route = (lastRule? rules route).map (·.complete base) := by
  induction rules using List.reverseRecOn with
  | nil => rfl
  | append_singleton rules r inductionHypothesis =>
    rw [routed_append, Table.find?_insert, lastRule?_append, inductionHypothesis]
    by_cases here : r.route = route
    · rw [if_pos here, if_pos here.symm, Option.map_some]
    · rw [if_neg here, if_neg (Ne.symm here)]

/-- There are as many routes as the rules name, each counted once. -/
theorem size_routed (base : Policy) (rules : List RouteRule) :
    (routed base rules).size = (rules.map RouteRule.route).toFinset.card := by
  apply Table.size_eq_card (routed_distinct base rules)
  intro route
  rw [find?_routed, Option.isSome_map, ← Option.ne_none_iff_isSome, Ne, lastRule?_eq_none_iff, List.mem_toFinset,
    List.mem_map]
  simp

/-- Rules are set in order until the first one that is not usable, whose fault is told; if there is none they are all
set. -/
theorem insertRules_eq (t : Policies) (rules : List RouteRule) :
    t.insertRules rules =
      match rules.findSome? (·.fault? t.otherwise) with
      | some fault => .error fault
      | none => .ok ⟨t.otherwise, rules.foldl (fun routes r => routes.insert r.route (r.complete t.otherwise)) t.routes⟩ := by
  induction rules generalizing t with
  | nil => rfl
  | cons r rest inductionHypothesis =>
    rw [insertRules, insert, List.findSome?_cons, RouteRule.fault?]
    cases is : (r.complete t.otherwise).fault? with
    | some cause => rfl
    | none => exact inductionHypothesis _

/-- The table of a base policy and rules, or what is wrong with them: with the base, else with the first rule that is not
usable. -/
theorem ofRules_eq (base : Policy) (rules : RouteRules) :
    ofRules base rules =
      match (base.fault?.map .otherwise).or (rules.routes.findSome? (·.fault? base)) with
      | some fault => .error fault
      | none => .ok ⟨base, routed base rules.routes⟩ := by
  unfold ofRules new
  cases base.fault? with
  | some cause => rfl
  | none => exact insertRules_eq ⟨base, .empty⟩ rules.routes

variable {base : Policy} {rules : RouteRules} {t : Policies} {fault : Fault}

/-- The table, where there is one: the base policy and all rules are without a fault, and the table is that of the rules
in their order. -/
theorem ofRules_ok_iff : ofRules base rules = .ok t ↔
    (base.fault? = none ∧ ∀ r ∈ rules.routes, (r.complete base).fault? = none) ∧ t = ⟨base, routed base rules.routes⟩ := by
  have faultless : (base.fault?.map Fault.otherwise).or (rules.routes.findSome? (·.fault? base)) = none ↔
      base.fault? = none ∧ ∀ r ∈ rules.routes, (r.complete base).fault? = none := by
    rw [Option.or_eq_none_iff, Option.map_eq_none_iff, List.findSome?_eq_none_iff]
    simp only [RouteRule.fault?, Option.map_eq_none_iff]
  rw [ofRules_eq, ← faultless]
  cases (base.fault?.map Fault.otherwise).or (rules.routes.findSome? (·.fault? base)) with
  | some fault => simp
  | none => simp [eq_comm]

/-- What is told where there is no table: the fault of the base policy, or else that of the first rule with one. -/
theorem ofRules_error_iff : ofRules base rules = .error fault ↔
    (∃ cause, base.fault? = some cause ∧ fault = .otherwise cause) ∨
      base.fault? = none ∧ ∃ earlier r later cause, rules.routes = earlier ++ r :: later ∧
        (∀ other ∈ earlier, (other.complete base).fault? = none) ∧ (r.complete base).fault? = some cause ∧
        fault = .route r.path r.method cause := by
  have first : rules.routes.findSome? (·.fault? base) = some fault ↔
      ∃ earlier r later cause, rules.routes = earlier ++ r :: later ∧
        (∀ other ∈ earlier, (other.complete base).fault? = none) ∧ (r.complete base).fault? = some cause ∧
        fault = .route r.path r.method cause := by
    rw [List.findSome?_eq_some_iff]
    constructor
    · rintro ⟨earlier, r, later, split, is, others⟩
      obtain ⟨cause, found, rfl⟩ := Option.map_eq_some_iff.mp is
      exact ⟨earlier, r, later, cause, split, fun other here => Option.map_eq_none_iff.mp (others other here), found, rfl⟩
    · rintro ⟨earlier, r, later, cause, split, others, found, rfl⟩
      exact ⟨earlier, r, later, split, Option.map_eq_some_iff.mpr ⟨cause, found, rfl⟩,
        fun other here => Option.map_eq_none_iff.mpr (others other here)⟩
  rw [ofRules_eq]
  cases base.fault? with
  | some cause => simp [eq_comm]
  | none =>
    simp only [Option.map_none, Option.none_or, reduceCtorEq, false_and, exists_false, false_or, true_and, ← first]
    cases rules.routes.findSome? (·.fault? base) <;> simp

/-- A request meets the policy of the last rule for its route, or else the base policy. -/
theorem resolve_routed (base : Policy) (rules : List RouteRule) (path method : String) :
    resolve ⟨base, routed base rules⟩ path method =
      ((lastRule? rules (.of path method)).map (·.complete base)).getD base := by
  rw [resolve, find?_routed]

end Policies

namespace Settings

variable {s : Settings} {files : Files} {more : List RouteRule}

/-- Where the file can be read, its rules come behind the rule for payments. -/
theorem policies_eq (read : s.fileRules files = .ok more) :
    s.policies files = (Policies.ofRules s.policy ⟨paymentsRule :: more⟩).mapError Policies.Fault.refusal := by
  unfold policies
  rw [read]
  rfl

/-- So the settings give a table exactly if these rules do, and the same one. -/
theorem policies_ok_iff (read : s.fileRules files = .ok more) {t : Policies} :
    s.policies files = .ok t ↔ Policies.ofRules s.policy ⟨paymentsRule :: more⟩ = .ok t := by
  rw [policies_eq read]
  cases Policies.ofRules s.policy ⟨paymentsRule :: more⟩ <;> simp [Except.mapError]

/-- And they are refused exactly if these rules have a fault, which is told in the words of a refusal. -/
theorem policies_error_iff (read : s.fileRules files = .ok more) {why : Refusal} :
    s.policies files = .error why ↔
      ∃ fault, Policies.ofRules s.policy ⟨paymentsRule :: more⟩ = .error fault ∧ why = fault.refusal := by
  rw [policies_eq read]
  cases Policies.ofRules s.policy ⟨paymentsRule :: more⟩ <;> simp [Except.mapError, eq_comm]

/-- The last rule of the file for a route is the last one of all. Where the file has none, it may be the one for
payments. -/
theorem lastRule?_withPayments (more : List RouteRule) (route : RouteName) :
    lastRule? (paymentsRule :: more) route =
      (lastRule? more route).or (if paymentsRule.route = route then some paymentsRule else none) := by
  unfold lastRule?
  by_cases here : paymentsRule.route = route
  · rw [List.filter_cons_of_pos (by simpa using here), if_pos here, List.getLast?_cons]
    cases (more.filter (·.route = route)).getLast? <;> rfl
  · rw [List.filter_cons_of_neg (by simpa using here), if_neg here, Option.or_none]

end Settings

open Policies in
/-- A base policy and rules make a table exactly if the base can be used and every rule can be used as a policy that is
completed from the base, whether or not a later rule replaces it; otherwise the fault of the base is told, or else that of
the first rule that has one. In the table a request meets the last rule for its route, completed from the base, or the base
where there is no such rule, and there are as many routes as the rules name.

The table of settings is made of the rule for payments and the rules of the file behind it. So the last rule of the file for
a route is the one that counts, for payments too: what it leaves open is that of the settings, and its keys are the server's
only if it says so itself. -/
theorem rules_resolve_by_last_match :
    (∀ (base : Policy) (rules : RouteRules),
      ((∃ t, ofRules base rules = .ok t) ↔
        base.fault? = none ∧ ∀ r ∈ rules.routes, (r.complete base).fault? = none) ∧
      (∀ fault, ofRules base rules = .error fault ↔
        (∃ cause, base.fault? = some cause ∧ fault = .otherwise cause) ∨
          base.fault? = none ∧ ∃ earlier r later cause, rules.routes = earlier ++ r :: later ∧
            (∀ other ∈ earlier, (other.complete base).fault? = none) ∧ (r.complete base).fault? = some cause ∧
            fault = .route r.path r.method cause) ∧
      ∀ t, ofRules base rules = .ok t →
        (∀ path method r, IsLastFor rules.routes (.of path method) r → t.resolve path method = r.complete base) ∧
        (∀ path method, (∀ r ∈ rules.routes, r.route ≠ .of path method) → t.resolve path method = base) ∧
        t.routes.size = (rules.routes.map RouteRule.route).toFinset.card) ∧
    ∀ (s : Settings) (files : Settings.Files),
      (∀ why, s.fileRules files = .error why → s.policies files = .error why) ∧
      ∀ more, s.fileRules files = .ok more →
        (∀ t, s.policies files = .ok t ↔ ofRules s.policy ⟨Settings.paymentsRule :: more⟩ = .ok t) ∧
        (∀ why, s.policies files = .error why ↔
          ∃ fault, ofRules s.policy ⟨Settings.paymentsRule :: more⟩ = .error fault ∧ why = fault.refusal) ∧
        (∀ r ∈ more, (r.complete s.policy).origin = r.origin) ∧
        ∀ t, s.policies files = .ok t →
          (∀ path method r, IsLastFor more (.of path method) r → t.resolve path method = r.complete s.policy) ∧
          ∀ path method, (∀ r ∈ more, r.route ≠ .of path method) →
            t.resolve path method =
              if RouteName.of "/api/payments" "POST" = .of path method then { s.policy with origin := some .server }
              else s.policy := by
  constructor
  · intro base rules
    refine ⟨?_, fun fault => ofRules_error_iff, ?_⟩
    · simp only [ofRules_ok_iff, exists_and_left, exists_eq, and_true]
    · intro t made
      obtain ⟨-, rfl⟩ := ofRules_ok_iff.mp made
      refine ⟨?_, ?_, size_routed base rules.routes⟩
      · intro path method r last
        rw [resolve_routed, last.found]
        rfl
      · intro path method without
        rw [resolve_routed, lastRule?_eq_none_iff.mpr without]
        rfl
  · intro s files
    constructor
    · intro why unread
      unfold Settings.policies
      rw [unread]
      rfl
    intro more read
    refine ⟨fun t => Settings.policies_ok_iff read, fun why => Settings.policies_error_iff read,
      fun r _ => Option.or_none, fun t made => ?_⟩
    obtain ⟨-, rfl⟩ := ofRules_ok_iff.mp ((Settings.policies_ok_iff read).mp made)
    constructor
    · intro path method r last
      rw [resolve_routed, Settings.lastRule?_withPayments, last.found]
      rfl
    · intro path method without
      rw [resolve_routed, Settings.lastRule?_withPayments, lastRule?_eq_none_iff.mpr without, Option.none_or]
      change ((if RouteName.of "/api/payments" "POST" = .of path method then some Settings.paymentsRule
        else none).map (·.complete s.policy)).getD s.policy = _
      split <;> rfl

deriving instance DecidableEq for RouteRule

/-- A file with two rules for payments, spelled differently. -/
def twoForPayments : String :=
  "\x7b\"routes\": [\x7b\"path\": \"/api/payments\", \"method\": \"POST\", \"capacity\": 7, \"cost\": 2\x7d,
    \x7b\"path\": \"api/payments/\", \"method\": \"post\", \"refill_period\": \"30s\"\x7d]\x7d"

/-- The first of the two, for less and dearer use. -/
def dearPayments : RouteRule := { RouteRule.plain "/api/payments" "POST" with capacity := some 7, cost := some 2 }

/-- The second, with a shorter period. -/
def fastPayments : RouteRule := { RouteRule.plain "api/payments/" "post" with period := some (.ofSeconds 30) }

/-- The usual settings with that file. -/
def withTwoForPayments : Settings := { Settings.usual with routesFile := some "routes.json" }

/-- The second rule counts. Nothing is left of the first, nor of the one that it replaced in turn. A rule that costs more than
it allows is told although a rule behind it replaces it. -/
theorem rules_resolve_by_last_match_twoForPayments :
    ∃ t, withTwoForPayments.policies (fun _ => .ok twoForPayments) = .ok t ∧
      t.resolve "/api/payments" "POST" = ⟨⟨200, 200, .ofSeconds 30⟩, 1, .nearest false 7 10, none⟩ ∧
      t.resolve "/api/payments" "GET" = withTwoForPayments.policy ∧ t.routes.size = 1 ∧
      Policies.ofRules withTwoForPayments.policy ⟨[{ dearPayments with cost := some 8 }, fastPayments]⟩ =
        .error (.route "/api/payments" "POST" (.costAboveCapacity 8 7)) := by
  obtain ⟨made, ofSettings⟩ := rules_resolve_by_last_match
  have text : (RouteRules.read twoForPayments).toOption.map (·.routes) = some [dearPayments, fastPayments] := by
    decide +kernel
  have read : withTwoForPayments.fileRules (fun _ => .ok twoForPayments) = .ok [dearPayments, fastPayments] := by
    change (RouteRules.read twoForPayments).map (·.routes) = _
    cases is : RouteRules.read twoForPayments with
    | error why =>
      rw [is] at text
      cases text
    | ok rules =>
      rw [is] at text
      exact congrArg Except.ok (Option.some.inj text)
  have faultless : withTwoForPayments.policy.fault? = none ∧
      ∀ r ∈ [Settings.paymentsRule, dearPayments, fastPayments], (r.complete withTwoForPayments.policy).fault? = none := by
    decide +kernel
  obtain ⟨accepted, -, -, resolved⟩ := (ofSettings _ _).2 _ read
  obtain ⟨complete, -, counted⟩ := made withTwoForPayments.policy ⟨[Settings.paymentsRule, dearPayments, fastPayments]⟩
  obtain ⟨t, table⟩ := complete.mpr faultless
  obtain ⟨fromFile, others⟩ := resolved t ((accepted t).mpr table)
  refine ⟨t, (accepted t).mpr table, ?_, ?_, ?_, ?_⟩
  · exact fromFile _ _ fastPayments ⟨[dearPayments], [], rfl, by decide +kernel, fun _ nothing => absurd nothing List.not_mem_nil⟩
  · exact others "/api/payments" "GET" (by decide +kernel)
  · rw [(counted t table).2.2]
    decide +kernel
  · refine ((made _ _).2.1 _).mpr (.inr ⟨faultless.1, [], _, [fastPayments], _, rfl, ?_, ?_, rfl⟩)
    · exact fun _ nothing => absurd nothing List.not_mem_nil
    · decide +kernel

end Turnstile
