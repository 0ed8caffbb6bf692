import Mathlib.Algebra.Ring.Nat
import Turnstile.Proofs.Table
import Turnstile.Tally

/-!
Counts add up.

Every figure of a tally is a sum over the requests that were counted: what a request adds to a figure is told by its ending
alone. From this all that can be said about counts follows. They are the same in whatever order requests are counted, and in
whatever order routes are added up. The endings make up the total, and marks are no more than the requests that were admitted.
-/

namespace Turnstile

/-- The figures that counts are made of. -/
inductive Figure where
  | total
  | executed
  | throttled
  | rateLimited
  | replayed
  | conflicts
  | failed
  | degraded
  deriving DecidableEq, Repr

namespace Counts

/-- A figure of counts. -/
def figure (c : Counts) : Figure → Nat
  | .total => c.total
  | .executed => c.executed
  | .throttled => c.throttled
  | .rateLimited => c.rateLimited
  | .replayed => c.replayed
  | .conflicts => c.conflicts
  | .failed => c.failed
  | .degraded => c.degraded

end Counts

/-- What a request adds to a figure: it is one request, of one ending, with the marks of its admission if it has a result. -/
def Ending.adds : Ending → Figure → Nat
  | _, .total => 1
  | .executed _ _, .executed | .replayed _ _, .replayed => 1
  | .executed throttled _, .throttled | .replayed throttled _, .throttled => throttled.toNat
  | .executed _ degraded, .degraded | .replayed _ degraded, .degraded => degraded.toNat
  | .rateLimited, .rateLimited | .conflict, .conflicts | .failed, .failed => 1
  | _, _ => 0

/-- One mark at most: a request that was admitted without a look at its bucket was not held back by it. -/
def Ending.MarksApart : Ending → Prop
  | .executed throttled degraded | .replayed throttled degraded => ¬ (throttled = true ∧ degraded = true)
  | .rateLimited | .conflict | .failed => True

namespace Counts

variable {a b c : Counts} {e : Ending}

/-- Nothing has been counted at the beginning. -/
@[simp] theorem figure_zero (since : Nat) (f : Figure) : (zero since).figure f = 0 := by
  cases f <;> rfl

/-- Counts are added up figure by figure. -/
@[simp] theorem figure_plus (f : Figure) : (a.plus b).figure f = a.figure f + b.figure f := by
  cases f <;> rfl

/-- An ending changes each figure by what it adds to it. -/
@[simp] theorem figure_add (f : Figure) : (c.add e).figure f = c.figure f + e.adds f := by
  cases e <;> cases f <;> rfl

/-- Each request is in one ending, and marks are of admitted requests that have a result, one mark for each at most. -/
structure Balanced (c : Counts) : Prop where
  endings : c.total = c.executed + c.replayed + c.rateLimited + c.conflicts + c.failed
  throttled : c.throttled ≤ c.executed + c.replayed
  degraded : c.degraded ≤ c.executed + c.replayed
  marks : c.throttled + c.degraded ≤ c.executed + c.replayed

/-- Where nothing has been counted, nothing is out of balance. -/
theorem balanced_zero (since : Nat) : (zero since).Balanced := by
  constructor <;> simp [zero]

/-- Two balanced counts are balanced together, since the total is added up as its parts are. -/
theorem Balanced.plus (balanced : a.Balanced) (balanced' : b.Balanced) : (a.plus b).Balanced := by
  obtain ⟨endings, -, -, marks⟩ := balanced
  obtain ⟨endings', -, -, marks'⟩ := balanced'
  constructor <;> dsimp only [Counts.plus] <;> omega

/-- One more request leaves counts balanced, unless it has both marks. Its ending goes into the total and into one part
of it, and a mark comes only with an ending that has a result. -/
theorem Balanced.add (balanced : c.Balanced) (apart : e.MarksApart) : (c.add e).Balanced := by
  have one {throttled degraded : Bool} (apart : ¬ (throttled = true ∧ degraded = true)) :
      throttled.toNat + degraded.toNat ≤ 1 := by
    cases throttled <;> cases degraded <;> simp at apart ⊢
  obtain ⟨endings, -, -, marks⟩ := balanced
  cases e with
  | executed throttled degraded =>
    have one := one apart
    constructor <;> dsimp only [Counts.add, mark] <;> omega
  | replayed throttled degraded =>
    have one := one apart
    constructor <;> dsimp only [Counts.add, mark] <;> omega
  | _ => constructor <;> dsimp only [Counts.add] <;> omega

/-- The figures of counts that are added up one after another are the sums of their figures. -/
theorem figure_foldl (cs : List Counts) (f : Figure) :
    (cs.foldl Counts.plus c).figure f = c.figure f + (cs.map fun d => d.figure f).sum := by
  induction cs generalizing c with
  | nil => rfl
  | cons d rest inductionHypothesis =>
    rw [List.foldl_cons, inductionHypothesis, figure_plus, List.map_cons, List.sum_cons, Nat.add_assoc]

/-- Counts that are each balanced stay so when they are added up one after another. -/
theorem balanced_foldl {cs : List Counts} (each : ∀ d ∈ cs, d.Balanced) (balanced : c.Balanced) :
    (cs.foldl Counts.plus c).Balanced := by
  induction cs generalizing c with
  | nil => exact balanced
  | cons d rest inductionHypothesis =>
    have others : ∀ d ∈ rest, d.Balanced := fun d there => each d (List.mem_cons_of_mem _ there)
    exact inductionHypothesis others (balanced.plus (each d List.mem_cons_self))

end Counts

/-- Where keys are apart, setting a value puts its size in the place of the one that was there. Either there was one, at
one place only, or the pair comes last and there is none to take away. -/
theorem Table.sum_insert {κ β : Type} [DecidableEq κ] {t : Table κ β} (distinct : t.Distinct) (size : β → Nat)
    (k : κ) (v : β) :
    ((t.insert k v).pairs.map fun p => size p.2).sum + ((t.find? k).map size).getD 0 =
      (t.pairs.map fun p => size p.2).sum + size v := by
  obtain ⟨pairs⟩ := t
  unfold insert
  by_cases known : pairs.any (·.1 = k) = true
  · rw [if_pos known]
    dsimp only
    induction pairs with
    | nil => cases known
    | cons pair rest inductionHypothesis =>
      obtain ⟨first, w⟩ := pair
      obtain ⟨absent, apart⟩ := List.nodup_cons.mp distinct
      rw [find?_cons]
      by_cases here : first = k
      · subst here
        -- The key is at no other pair, so the rest stays as it is.
        have untouched : (rest.map fun p => if p.1 = first then (first, v) else p) = rest := by
          refine (List.map_congr_left fun p there => if_neg fun same => absent ?_).trans (List.map_id rest)
          exact List.mem_map.mpr ⟨p, there, same⟩
        simp only [List.map_cons, if_true, untouched, List.sum_cons, Option.map_some, Option.getD_some]
        omega
      · have known' : rest.any (·.1 = k) = true := by simpa [here] using known
        have tail := inductionHypothesis apart known'
        simp only [List.map_cons, here, if_false, List.sum_cons] at tail ⊢
        omega
  · rw [if_neg known]
    rw [any_iff_isSome, Option.not_isSome_iff_eq_none] at known
    simp [known]

namespace Tally

variable {t : Tally}

/-- A figure of a route, which is none before the route is counted. -/
def figure (t : Tally) (route : String) (f : Figure) : Nat := ((t.route? route).map fun c => c.figure f).getD 0

/-- All figures together are the sums over the routes, as adding up starts from nothing. -/
theorem figure_all (t : Tally) (now : Nat) (f : Figure) :
    (t.all now).figure f = (t.routes.pairs.map fun p => p.2.figure f).sum := by
  rw [all, Counts.figure_foldl, Counts.figure_zero, Nat.zero_add, List.map_map]
  rfl

/-- Counting a request changes the figures of one route only, by what its ending adds. A route that is not there yet
starts from nothing. -/
theorem figure_record (t : Tally) (now : Nat) (route other : String) (e : Ending) (f : Figure) :
    (t.record now route e).figure other f = t.figure other f + if other = route then e.adds f else 0 := by
  unfold figure route? record
  rw [Table.find?_insert]
  by_cases same : other = route
  · subst same
    cases t.routes.find? other <;> simp
  · simp [same]

/-- The figures of all routes together change as those of the one route do: its counts are put in the place of the ones
it had. -/
theorem figure_all_record (distinct : t.routes.Distinct) (now now' : Nat) (route : String) (e : Ending) (f : Figure) :
    ((t.record now route e).all now').figure f = (t.all now').figure f + e.adds f := by
  rw [figure_all, figure_all]
  have replaced := Table.sum_insert distinct (fun c => c.figure f) route
    (((t.routes.find? route).getD (.zero now)).add e)
  unfold record
  cases found : t.routes.find? route <;> simp [found] at replaced ⊢ <;> omega

/-- The tally sums up the requests that were counted, each with its route and its ending. -/
structure Sums (t : Tally) (counted : List (String × Ending)) : Prop where
  /-- Every route is there once. -/
  distinct : t.routes.Distinct
  /-- A route is there as soon as it is counted. -/
  known : ∀ route, (t.route? route).isSome = true ↔ ∃ e, (route, e) ∈ counted
  /-- A figure of a route is what its requests add. -/
  figures : ∀ route f, t.figure route f = ((counted.filter fun c => c.1 = route).map fun c => c.2.adds f).sum
  /-- A figure of all routes together is what all requests add. -/
  whole : ∀ now f, (t.all now).figure f = (counted.map fun c => c.2.adds f).sum

/-- One more request is counted: its route is there, and what its ending adds is added to the figures of that route and
to those of all together. -/
theorem Sums.record {counted : List (String × Ending)} (sums : t.Sums counted) (now : Nat) (route : String) (e : Ending) :
    (t.record now route e).Sums ((route, e) :: counted) where
  distinct := Table.distinct_insert _ sums.distinct _ _
  known other := by
    have before := sums.known other
    unfold route? at before
    unfold route? Tally.record
    rw [Table.find?_insert]
    by_cases same : other = route
    · simp [same]
    · simp [same, before]
  figures other f := by
    rw [figure_record, sums.figures, List.filter_cons]
    by_cases same : other = route
    · simp [same, Nat.add_comm]
    · simp [same, Ne.symm same]
  whole now' f := by
    rw [figure_all_record sums.distinct, sums.whole, List.map_cons, List.sum_cons, Nat.add_comm]

/-- Tallies of the same requests have the same figures, in whatever order the requests were counted, since sums do not
depend on the order. -/
theorem Sums.same {t' : Tally} {counted counted' : List (String × Ending)} (sums : t.Sums counted) (sums' : t'.Sums counted')
    (order : counted.Perm counted') (f : Figure) :
    (∀ route, t.figure route f = t'.figure route f) ∧ ∀ now, (t.all now).figure f = (t'.all now).figure f := by
  constructor
  · intro route
    rw [sums.figures, sums'.figures]
    exact ((order.filter _).map _).sum_nat
  · intro now
    rw [sums.whole, sums'.whole]
    exact (order.map _).sum_nat

/-- The tally of requests that were counted, last first: each with the time, its route and its ending. -/
def recorded (events : List (Nat × String × Ending)) : Tally :=
  events.foldr (fun event t => t.record event.1 event.2.1 event.2.2) empty

/-- The counts of every route are balanced. -/
def Balanced (t : Tally) : Prop := ∀ route c, t.route? route = some c → c.Balanced

/-- A balanced tally stays balanced when a request is counted that does not have both marks. Only one route has changed. -/
theorem Balanced.record (balanced : t.Balanced) {e : Ending} (apart : e.MarksApart) (now : Nat) (route : String) :
    (t.record now route e).Balanced := by
  intro other c found
  unfold route? Tally.record at found
  rw [Table.find?_insert] at found
  split at found
  · cases found
    cases before : t.routes.find? route with
    | none => exact (Counts.balanced_zero now).add apart
    | some c => exact (balanced route c before).add apart
  · exact balanced other c found

/-- So are the counts of all routes together, which are made by adding balanced ones to nothing. -/
theorem Balanced.all (balanced : t.Balanced) (distinct : t.routes.Distinct) (now : Nat) : (t.all now).Balanced := by
  have each : ∀ c ∈ t.routes.pairs.map (·.2), c.Balanced := by
    intro c there
    obtain ⟨⟨route, c⟩, pair, rfl⟩ := List.mem_map.mp there
    exact balanced route c ((Table.mem_pairs_iff distinct route c).mp pair)
  exact Counts.balanced_foldl each (Counts.balanced_zero now)

end Tally

end Turnstile
