import Turnstile.Proofs.Crowd.Play
import Turnstile.Proofs.Guard.Gate
import Turnstile.Proofs.Service.Buckets
import Turnstile.Proofs.Service.Replay
import Turnstile.Proofs.Tally

/-!
What a service counts.

A guarded request is counted when it has ended, once, by its route and its ending. Requests come in any number and take their
steps in any order, and so does the counting. As an admission is never both throttled and degraded, neither is an ending, and
so the counts of every route are balanced at any time: the endings make up the total, and the marks are of requests that have
a result.
-/

namespace Turnstile

namespace Service

open Http (Request Response Site)

variable {service : Service} {pattern : String} {r : Request} {deeds : List (Deed Response)} {response : Response}
  {count : Option (String × Ending)}

/-- A result carries one mark at most. It was admitted, and the marks of its ending are those of the admission, which
are apart; what was lost carries none. -/
theorem marksApart_of_run {codec : Codec Recording} {i : Invocation} {operation : Attempt Response Recording} {g : Guard}
    {result : Except Failure (Guarded Recording)} (ends : (g.run codec i operation).run.Ends deeds result) :
    (Ending.of result).MarksApart := by
  cases result with
  | error failure => cases failure <;> trivial
  | ok guarded =>
    obtain ⟨first, -, admitted⟩ := admitted_of_run ends
    have apart := marksApart_of_pass admitted
    change (if guarded.replayed = true then Ending.replayed _ _ else Ending.executed _ _).MarksApart
    split
    · exact apart
    · exact apart

/-- A guarded request is counted on its route, which is told by its method and the pattern of its path, and not by what
it asks for. -/
theorem count_of_guarded {operation : Program Response Response}
    (ends : (service.guarded pattern r operation).Ends deeds (response, count)) :
    ∃ ending, count = some (r.method ++ " " ++ pattern, ending) ∧ ending.MarksApart := by
  obtain ⟨result, first, rest, ended, after, -⟩ := Program.ends_bind.mp ends
  obtain ⟨-, is⟩ := Attempt.ends_done.mp after
  exact ⟨Ending.of result, (Prod.mk.inj is).2.symm, marksApart_of_run ended⟩

/-- The route that a request is guarded on: unless its path is unknown, or it is told the options at once, or what it asks
for is not guarded. -/
def guardedRoute? (site : Site Action) (r : Request) : Option String :=
  match site.find? r.target.path with
  | none => none
  | some (route, _) =>
    let cover := ((route.handling? r.method).map (·.cover)).getD route.otherwise
    if r.method = "OPTIONS" ∧ cover.isShared then none
    else if cover.isGuarded then some (r.method ++ " " ++ route.pattern) else none

/-- A request is counted on the route that it is guarded on, and not at all if there is none. The cases are those in
which a request is answered: without a route, with the options, through the guard or past it. -/
theorem count_of_answer {site : Site Action} {view : View}
    (ends : (service.answer site view r).Ends deeds (response, count)) :
    count.map (·.1) = guardedRoute? site r ∧ ∀ route ending, count = some (route, ending) → ending.MarksApart := by
  have uncounted {b : Response} {rest : List (Deed Response)}
      (ends : (Program.done (b, none) : Program Response (Response × Option (String × Ending))).Ends rest (response, count)) :
      count = none ∧ ∀ route ending, count = some (route, ending) → ending.MarksApart := by
    obtain ⟨-, is⟩ := Attempt.ends_done.mp ends
    obtain rfl := (Prod.mk.inj is).2
    exact ⟨rfl, fun _ _ some => by cases some⟩
  unfold answer at ends
  unfold guardedRoute?
  cases found : site.find? r.target.path with
  | none =>
    simp only [found] at ends ⊢
    obtain ⟨rfl, apart⟩ := uncounted ends
    exact ⟨rfl, apart⟩
  | some match' =>
    obtain ⟨route, values⟩ := match'
    simp only [found] at ends ⊢
    split at ends
    · rename_i told
      rw [if_pos told]
      obtain ⟨rfl, apart⟩ := uncounted ends
      exact ⟨rfl, apart⟩
    · rename_i asked
      rw [if_neg asked]
      split at ends
      · rename_i isGuarded
        rw [if_pos isGuarded]
        obtain ⟨⟨response', count'⟩, first, rest, ended, after, -⟩ := Program.ends_bind.mp ends
        obtain ⟨-, is⟩ := Attempt.ends_done.mp after
        obtain ⟨ending, rfl, apart⟩ := count_of_guarded ended
        obtain rfl := (Prod.mk.inj is).2
        refine ⟨rfl, fun route ending is => ?_⟩
        cases is
        exact apart
      · rename_i open'
        rw [if_neg open']
        obtain ⟨response', first, rest, ended, after, -⟩ := Program.ends_bind.mp ends
        obtain ⟨rfl, apart⟩ := uncounted after
        exact ⟨rfl, apart⟩

end Service

open Http (Request Response Site)
open Service (Requests)

/-- A request that was counted: whose it was, when it was counted, and as what. -/
structure Counted where
  caller : Nat
  now : Nat
  route : String
  ending : Ending

/-- Callers over a store, and the tally of those whose requests have ended. -/
structure Metered (α : Type) where
  crowd : Requests α
  tally : Tally
  /-- Who was counted, last first. -/
  counted : List Counted

variable {α : Type}

variable [TokenNumber α]

/-- A caller that has come to its end has nothing left to do: no step of a program starts there. -/
theorem Crowd.Step.stays_done {ω β : Type} {w w' : Crowd α ω β} {move : Move ω} (step : w.Step move w') {i : Nat} {b : β}
    (done : w.callers i = .done b) : w'.callers i = .done b := by
  have course : Course "" (fun _ _ _ => True) w w' := .step (.start w) step trivial
  have leaves := course.leaves i
  rw [done] at leaves
  generalize w'.callers i = left at leaves ⊢
  cases leaves
  rfl

namespace Metered

/-- The callers take a step, or one whose request has ended is counted, unless it was before. -/
inductive Step (m : Metered α) : Metered α → Prop
  | moved (move : Move Response) (w : Requests α) (step : m.crowd.Step move w) : Step m { m with crowd := w }
  | counted (c : Counted) (response : Response) (ended : m.crowd.callers c.caller = .done (response, some (c.route, c.ending)))
      (first : c.caller ∉ m.counted.map (·.caller)) :
      Step m { m with tally := m.tally.record c.now c.route c.ending, counted := c :: m.counted }

/-- Any number of steps. -/
inductive Run : Metered α → Metered α → Prop
  | start (m : Metered α) : Run m m
  | step {m m' m'' : Metered α} (run : Run m m') (step : m'.Step m'') : Run m m''

variable {service : Service} {site : Site Service.Action} {view : Nat → View} {request : Nat → Request} {w : Requests α}
  {m m' : Metered α}

/-- How the tally has come about: the callers have gone on along a course, and whoever is counted has ended and is still what
it was counted as. -/
structure Sound (w : Requests α) (m : Metered α) : Prop where
  course : Crowd.Course "" (fun _ _ _ => True) w m.crowd
  recorded : m.tally = .recorded (m.counted.map fun c => (c.now, c.route, c.ending))
  once : (m.counted.map (·.caller)).Nodup
  ended : ∀ c ∈ m.counted, ∃ response, m.crowd.callers c.caller = .done (response, some (c.route, c.ending))

/-- A step of the callers lengthens the course and leaves those who have ended. A count adds one to those who were
counted, which is one that has ended and was not among them. -/
theorem Sound.step (sound : Sound w m) (step : m.Step m') : Sound w m' := by
  cases step with
  | moved move w' step =>
    have ended (c : Counted) (counted : c ∈ m.counted) :
        ∃ response, w'.callers c.caller = .done (response, some (c.route, c.ending)) := by
      obtain ⟨response, done⟩ := sound.ended c counted
      exact ⟨response, step.stays_done done⟩
    exact { course := .step sound.course step trivial, recorded := sound.recorded, once := sound.once, ended := ended }
  | counted c response ended first =>
    have recorded : m.tally.record c.now c.route c.ending =
        .recorded ((c :: m.counted).map fun c => (c.now, c.route, c.ending)) := by
      rw [sound.recorded]
      rfl
    exact {
      course := sound.course
      recorded := recorded
      once := List.nodup_cons.mpr ⟨first, sound.once⟩
      ended := List.forall_mem_cons.mpr ⟨⟨response, ended⟩, sound.ended⟩ }

/-- So it is after every run: at first nobody has been counted and the tally is empty. -/
theorem Run.sound (run : Run ⟨w, .empty, []⟩ m) : Sound w m := by
  induction run with
  | start => exact { course := .start w, recorded := rfl, once := List.nodup_nil, ended := nofun }
  | step _ step inductionHypothesis => exact inductionHypothesis.step step

section

variable (callers : ∀ i, w.callers i = service.answer site (view i) (request i)) (nobody : w.past = [])
include callers nobody

/-- What a request that has ended is counted as. Its deeds lead from the whole request to its end, so this is a fact
about one request alone. -/
theorem Sound.count (sound : Sound w m) {i : Nat} {response : Response} {count : Option (String × Ending)}
    (done : m.crowd.callers i = .done (response, count)) :
    count.map (·.1) = Service.guardedRoute? site (request i) ∧
      ∀ route ending, count = some (route, ending) → ending.MarksApart := by
  have leads := sound.course.leadsTo nobody i
  rw [callers, done] at leads
  exact Service.count_of_answer leads

end

end Metered

end Turnstile
