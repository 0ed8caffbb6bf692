import Turnstile.Proofs.Guard.Account
import Turnstile.Proofs.Guard.Sources
import Turnstile.Proofs.Guard.Through
import Turnstile.Service

/-!
Guarded requests as passages.

The guard sees the response of an operation as a recording, or as the failure that a response without success is. A
guarded request is a passage that sees its operation's response so, and whose result is turned into the response that is
delivered. So along every course of guarded requests there is a course of passages, and what callers were delivered is
told by what their passages returned.
-/

namespace Turnstile

section

variable {ω ω' : Type} {see : ω → ω'} {k : String}

/-- What was written to a record is the same, however the operation's answers are seen. A write is told of by a call and
its reply, and the view changes neither. -/
theorem writes_through (past : List (Note ω)) : writes k (past.map (Note.through see)) = writes k past := by
  have each (note : Note ω) : (note.through see).write? k = note.write? k := by
    obtain ⟨caller, time, deed⟩ := note
    cases deed with
    | called c reply =>
      cases c with
      | setIfAbsent => rcases reply with why | _ | _ <;> rfl
      | compareAndSet => rcases reply with why | _ | _ <;> rfl
      | _ => rfl
    | _ => rfl
  unfold writes
  rw [List.filterMap_map]
  congr 1
  funext note
  exact each note

/-- So the last result stored is the same. -/
theorem lastResult?_through (past : List (Note ω)) : lastResult? k (past.map (Note.through see)) = lastResult? k past := by
  unfold lastResult?
  rw [writes_through]

/-- A move that stores no result stores none when it is seen otherwise: only outside calls are asked, and they are as
they were. -/
theorem storesNone_through {move : Move ω} (spares : move.StoresNone k) : (move.through see).StoresNone k := by
  cases move with
  | outside c => exact spares
  | _ => trivial

end

namespace Service

open Http (Request Response)

/-- How the guard sees the response of an operation. -/
def seen (response : Response) : Except Failure Recording :=
  (Recording.capture response).mapError Failure.unsuccessful

/-- A guarded request as a passage. -/
def passage (s : Service) (pattern : String) (r : Request) : Passage Recording where
  client := clientName r.headers r.peer s.trustHeaders
  path := pattern
  method := r.method
  policy := (s.invocation pattern r).policy
  key := (s.invocation pattern r).key
  codec := .recording

/-- What a guarded request answers, and counts, for what its passage returned. -/
def delivered (pattern : String) (r : Request) (returned : Except Failure (Guarded Recording)) :
    Response × Option (String × Ending) :=
  (guardedResponse returned, some (r.method ++ " " ++ pattern, Ending.of returned))

/-- Recording the response of the wrapped operation is the operation as the guard sees it. What the program does with
the answer before the guard goes on is to capture it, or to fail for want of success. -/
theorem through_recorded : (Attempt.work : Attempt (Except Failure Recording) Recording).through seen =
    recorded (responding Attempt.wrapped) := by
  apply congrArg (Program.work none)
  funext response
  change Program.done (seen response) = _
  unfold seen
  dsimp only [Program.bind, Function.comp, ExceptT.bindCont, pure, ExceptT.pure, ExceptT.mk]
  cases Recording.capture response <;> rfl

/-- A guarded request is a passage that sees the response of the wrapped operation. Both are the same turn of the guard;
the one records within, the other has the view put over it from outside. -/
theorem guarded_through (s : Service) (pattern : String) (r : Request) :
    s.guarded pattern r (responding Attempt.wrapped) =
      ((s.passage pattern r).program s.guard).through seen (delivered pattern r) := by
  have run := through_run s.guard .recording (s.invocation pattern r) through_recorded
  unfold guarded
  rw [← run]
  exact (Program.through_turn seen (delivered pattern r) _).symm

/-- A crowd of guarded requests, whose operations may answer anything. -/
abbrev Requests (α : Type) := Crowd α Response (Response × Option (String × Ending))

variable {α : Type} {k : String} {s : Service} {pattern : Nat → String} {request : Nat → Request} {w w' : Requests α}

/-- The passages that the callers' requests are made of. -/
def passages (s : Service) (pattern : Nat → String) (request : Nat → Request) (i : Nat) : Passage Recording :=
  s.passage (pattern i) (request i)

/-- To every course of guarded requests belongs one of passages. It has the same moves in the same order, each as the
guard sees it, so what the environment was fair to it remains fair to. -/
theorem passages_course [TokenNumber α] {fair : Move Response → Scene α Response → Scene α Response → Prop}
    {fair' : Move (Except Failure Recording) → Scene α (Except Failure Recording) → Scene α (Except Failure Recording) → Prop}
    (implies : ∀ move v v', fair move v v' → fair' (move.through seen) (v.through seen) (v'.through seen))
    (callers : ∀ i, w.callers i = s.guarded (pattern i) (request i) (responding Attempt.wrapped))
    (course : Crowd.Course k fair w w') :
    ∃ programs, w'.MadeOf seen (fun i => delivered (pattern i) (request i)) programs ∧
      Crowd.Course k fair' (w.behind seen fun i => (passages s pattern request i).program s.guard)
        (w'.behind seen programs) :=
  course.behind implies fun i => (callers i).trans (guarded_through s (pattern i) (request i))

/-- A call that the guard has seen made was made, and what came before it came before it. The view maps the past note by
note and makes a call of nothing but a call. -/
theorem called_of_seen {past : List (Note Response)} {i : Nat} {time : Moment} {c : Call} {reply : Except Failure c.Reply}
    {later earlier : List (Note (Except Failure Recording))}
    (parts : past.map (Note.through seen) = later ++ ⟨i, time, .called c reply⟩ :: earlier) :
    ∃ later' earlier', past = later' ++ ⟨i, time, .called c reply⟩ :: earlier' ∧
      earlier = earlier'.map (Note.through seen) := by
  obtain ⟨later', rest, rfl, -, after⟩ := List.map_eq_append_iff.mp parts
  obtain ⟨⟨caller, time', deed⟩, earlier', rfl, same, is⟩ := List.map_eq_cons_iff.mp after
  cases deed with
  | called c' reply' =>
    cases same
    exact ⟨later', earlier', rfl, is.symm⟩
  | _ => cases same

/-- What a caller was delivered is what its passage returned: the response is made of it, and so is the way in which the
request counts. -/
theorem returned_of_delivered {programs : Nat → Program (Except Failure Recording) (Except Failure (Guarded Recording))}
    (made : w'.MadeOf seen (fun i => delivered (pattern i) (request i)) programs) {i : Nat} {response : Response}
    {count : Option (String × Ending)} (done : w'.callers i = .done (response, count)) :
    ∃ returned, programs i = .done returned ∧ response = guardedResponse returned ∧
      count = some ((request i).method ++ " " ++ pattern i, Ending.of returned) := by
  obtain ⟨returned, is, same⟩ := Program.through_done ((made i).symm.trans done)
  exact ⟨returned, is, (Prod.mk.inj same).1.symm, (Prod.mk.inj same).2.symm⟩

/-- An outcome that the guard saw is how it saw some response that was given. -/
theorem given_of_seen {past : List (Note Response)} {i : Nat} {time : Moment} {outcome : Except Failure Recording}
    (noted : ⟨i, time, .worked outcome⟩ ∈ past.map (Note.through seen)) :
    ∃ answer, ⟨i, time, .worked answer⟩ ∈ past ∧ seen answer = outcome := by
  obtain ⟨⟨caller, time', deed⟩, there, same⟩ := List.mem_map.mp noted
  cases deed with
  | worked answer =>
    cases same
    exact ⟨answer, there, rfl⟩
  | _ => cases same

end Service

end Turnstile
