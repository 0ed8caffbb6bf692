import Turnstile.Proofs.Crowd.Endings
import Turnstile.Proofs.Guard.Gate
import Turnstile.Proofs.Registry.Ledger

/-!
What a guarded call returns, told by what it has done.

A result that is not replayed is the one that the call's own operation gave, and on an idempotent route the call has
stored it. A result that is replayed was read from the record of the key. When the operation failed, the call fails in
the same way. And whoever has stored a result returns it as its own. All this is read off what the call did, whatever
the store answered.
-/

namespace Turnstile

variable {α ω β τ : Type}

/-- A deed that stored a text in a key's record which is not the pending one. -/
def Deed.Stores (k : String) (deed : Deed ω) (text : String) : Prop :=
  text ≠ Record.placeholder ∧
    ((∃ life, deed = .called (.setIfAbsent (recordKey k) text life) (.ok true)) ∨
      ∃ expected life, deed = .called (.compareAndSet (recordKey k) expected text life) (.ok true))

/-- A deed that neither ran the operation nor stored anything but the pending text in a key's record. -/
def Deed.IsQuiet (k : String) (deed : Deed ω) : Prop := (∀ answer, deed ≠ .worked answer) ∧ ∀ text, ¬ deed.Stores k text

def Quiet (k : String) (deeds : List (Deed ω)) : Prop := ∀ deed ∈ deeds, deed.IsQuiet k

/-- A result was read from a key's record. -/
def ReadResult (k : String) (value : Json.Value) (deeds : List (Deed ω)) : Prop :=
  ∃ text, .called (.get (recordKey k)) (.ok (some text)) ∈ deeds ∧ Record.read text = .ok (.resolved value)

/-- What became of a call at a key, told by its deeds. -/
structure Account (codec : Codec τ) (k : String) (deeds : List (Deed (Except Failure τ)))
    (outcome : Except Failure (τ × Bool)) : Prop where
  own : ∀ result, outcome = .ok (result, false) →
    .worked (.ok result) ∈ deeds ∧ ∃ deed ∈ deeds, ∃ text, deed.Stores k text
  replayed : ∀ result, outcome = .ok (result, true) →
    ∃ value, ReadResult k value deeds ∧ codec.decode value = .ok result
  failed : ∀ why, .worked (.error why) ∈ deeds → outcome = .error why
  stored : ∀ deed ∈ deeds, ∀ text, deed.Stores k text → ∃ result, outcome = .ok (result, false)

section

variable {k : String} {deeds before : List (Deed ω)}

/-- Whatever stores a text is a call that sets this text, and it was answered. No other deed reaches the store's
entries. -/
theorem Deed.Stores.called {deed : Deed ω} {text : String} (stores : deed.Stores k text) :
    ∃ c reply, deed = .called c (.ok reply) ∧ c.text? = some text := by
  obtain ⟨-, ⟨life, rfl⟩ | ⟨expected, life, rfl⟩⟩ := stores
  · exact ⟨_, _, rfl, rfl⟩
  · exact ⟨_, _, rfl, rfl⟩

/-- Running the operation stores nothing by itself, as it is no call. What it gave is stored by the calls behind it, if
at all. -/
theorem Deed.not_stores_worked {answer : ω} {text : String} : ¬ (.worked answer : Deed ω).Stores k text := by
  intro stores
  obtain ⟨_, _, is, -⟩ := stores.called
  cases is

/-- A call that has done nothing was quiet. -/
theorem quiet_nil : Quiet k ([] : List (Deed ω)) := by
  intro deed done
  cases done

/-- Quiet deeds behind quiet ones are quiet, as every deed is quiet by itself. The parts of a call can so be judged one
by one. -/
theorem Quiet.append (first : Quiet k before) (second : Quiet k deeds) : Quiet k (before ++ deeds) := by
  intro deed done
  rcases List.mem_append.mp done with early | late
  · exact first deed early
  · exact second deed late

/-- A single deed that is neither a run of the operation nor one that stores a result. All the deeds of looks, locks and
admissions are of this kind. -/
theorem quiet_of_unstored {deed : Deed ω} (idle : ∀ answer, deed ≠ .worked answer) (unstored : ∀ text, ¬ deed.Stores k text) :
    Quiet k [deed] := by
  intro other done
  rw [List.mem_singleton.mp done]
  exact ⟨idle, unstored⟩

/-- A call that sets no text stores none, whatever it is answered: only the two kinds of calls that carry a text can
store a result. -/
theorem quiet_called {c : Call} (reply : Except Failure c.Reply) (textless : c.text? = none) :
    Quiet k [(.called c reply : Deed ω)] := by
  refine quiet_of_unstored nofun fun text stores => ?_
  obtain ⟨_, _, is, sets⟩ := stores.called
  cases is
  rw [textless] at sets
  cases sets

/-- A text that is set at another key, or is the pending one, or was not set, is no result that is stored. The
placeholder of a new key and the lock of a call are the two examples. -/
theorem quiet_set {key text : String} {life : Span} (reply : Except Failure Bool)
    (other : key ≠ recordKey k ∨ text = Record.placeholder ∨ reply ≠ .ok true) :
    Quiet k [(.called (.setIfAbsent key text life) reply : Deed ω)] := by
  refine quiet_of_unstored nofun ?_
  rintro text ⟨result, ⟨life, is⟩ | ⟨expected, life, is⟩⟩
  · cases is
    rcases other with elsewhere | pending | refused
    · exact elsewhere rfl
    · exact result pending
    · exact refused rfl
  · cases is

/-- A text that was not put in another's place is no result that is stored: a swap stores only if the store answers that
it was made. -/
theorem quiet_replace {key expected text : String} {life : Span} (reply : Except Failure Bool) (refused : reply ≠ .ok true) :
    Quiet k [(.called (.compareAndSet key expected text life) reply : Deed ω)] := by
  refine quiet_of_unstored nofun ?_
  rintro text ⟨-, ⟨life, is⟩ | ⟨expected, life, is⟩⟩
  · cases is
  · cases is
    exact refused rfl

/-- Whoever wrote a result to a record has stored it. A write is a text that was set or swapped in at the record, so all
that is missing is that it is not the pending one. -/
theorem Note.stores_of_write {note : Note ω} {write : Write} (written : note.write? k = some write)
    (result : write.text ≠ Record.placeholder) : note.caller = write.caller ∧ note.deed.Stores k write.text := by
  unfold Note.write? at written
  split at written
  · rename_i key text life is
    split at written
    · rename_i here
      cases written
      subst here
      exact ⟨rfl, result, .inl ⟨life, is⟩⟩
    · cases written
  · rename_i key expected text life is
    split at written
    · rename_i here
      cases written
      subst here
      exact ⟨rfl, result, .inr ⟨expected, life, is⟩⟩
    · cases written
  · cases written

/-- Drawing a name is quiet, as nobody is called for it. -/
theorem quiet_named (name : String) : Quiet k [(.named name : Deed ω)] :=
  quiet_of_unstored nofun fun text stores => by
    obtain ⟨_, _, is, -⟩ := stores.called
    cases is

/-- What was read stays read when more is done: it is told by one call among the deeds. -/
theorem ReadResult.mono {value : Json.Value} (read : ReadResult k value before) (more : before ⊆ deeds) :
    ReadResult k value deeds := by
  obtain ⟨text, called, reads⟩ := read
  exact ⟨text, more called, reads⟩

/-! Parts that are quiet. -/

variable {g : Guard} {r : Registry}

/-- Admission is quiet. Its only call takes tokens, which sets no text. -/
theorem quiet_pass (t : Throttle) (bucket : BucketKey) (p : Policy) :
    (t.pass bucket p : Attempt ω _).Yields fun deeds _ => Quiet k deeds := by
  intro deeds outcome ended deed done
  constructor
  · rintro answer rfl
    obtain ⟨first, rest, rfl⟩ := List.append_of_mem done
    exact comesToWork_pass (Program.LeadsTo.comesToWork ended)
  · intro text stores
    obtain ⟨c, _, rfl, sets⟩ := stores.called
    obtain rfl := asksOnly_pass deeds _ ended _ done c rfl
    cases sets

/-- Checking a key is quiet: it makes no call. -/
theorem quiet_checkKey (key : String) : (Registry.checkKey key : Attempt ω Unit).Yields fun deeds _ => Quiet k deeds := by
  unfold Registry.checkKey
  split
  · exact Attempt.yields_throw quiet_nil
  · exact Attempt.yields_pure quiet_nil

/-- Taking a lock is quiet. The lock has a key of its own, so the name that is set there is not stored at a record. -/
theorem quiet_acquire (key : String) (life : Span) :
    (Lease.acquire key life : Attempt ω _).Yields fun deeds _ => Quiet k deeds := by
  refine Attempt.Yields.bind (fun deeds _ => Quiet k deeds) (Attempt.yields_freshName quiet_named)
    (fun first token named => ?_) fun _ _ quiet => quiet
  refine Attempt.Yields.bind (fun deeds _ => Quiet k deeds) (Attempt.yields_probe fun reply => ?_)
    (fun tried reply probed => ?_) fun _ _ quiet => named.append quiet
  · exact quiet_set reply (.inl fun same => recordKey_ne_lockKey k key same.symm)
  · have quiet := named.append (probed.append quiet_nil)
    rcases reply with why | _ | _ <;> exact Attempt.yields_pure quiet

/-- Giving a lease back is quiet and never fails. The call removes a name and sets none, and what it was answered is
dropped. -/
theorem quiet_release (lease : Lease) :
    (lease.release : Attempt ω Unit).Yields fun deeds outcome => Quiet k deeds ∧ outcome = .ok () := by
  have asked : (Attempt.probe lease.giveBack : Attempt ω _).Yields fun deeds outcome =>
      Quiet k deeds ∧ ∃ reply, outcome = .ok reply := by
    refine Attempt.yields_probe fun reply => ⟨?_, reply, rfl⟩
    exact quiet_called reply rfl
  refine Attempt.Yields.bind _ asked (fun deeds reply told => Attempt.yields_pure ?_) fun deeds why told => ?_
  · exact ⟨told.1.append quiet_nil, rfl⟩
  · obtain ⟨-, reply, is⟩ := told
    cases is

/-- Asking for a text is quiet, whatever the key. -/
theorem quiet_get (key : String) (reply : Except Failure (Option String)) :
    Quiet k [(.called (.get key) reply : Deed ω)] :=
  quiet_called (c := .get key) reply rfl

/-- Looking a record up is quiet, and a result that is found was read: the text that was answered is the one that reads
as it. -/
theorem quiet_find :
    (r.find? k : Attempt ω _).Yields fun deeds found =>
      Quiet k deeds ∧ ∀ value, found = .ok (some (.resolved value)) → ReadResult k value deeds := by
  refine Attempt.Yields.bind (fun deeds reply => deeds = [.called (.get (recordKey k)) reply])
    (Attempt.yields_ask (c := .get (recordKey k)) fun reply => rfl) (fun deeds text is => Attempt.yields_ofResult ?_) fun deeds why is => ?_
  · subst is
    refine ⟨(quiet_get _ _).append quiet_nil, fun value found => ?_⟩
    cases text with
    | none => cases found
    | some text =>
      refine ⟨text, by simp, ?_⟩
      simp only [Registry.readRecord] at found
      split at found
      · rename_i record reads
        cases found
        exact reads
      · cases found
  · subst is
    exact ⟨quiet_get _ _, fun value found => by cases found⟩

/-- Seeing a key for the first time is quiet, since the text which is set is the placeholder, and that is no result. -/
theorem quiet_firstSight (origin : KeyOrigin) :
    (g.firstSight k origin : Attempt ω Unit).Yields fun deeds _ => Quiet k deeds := by
  cases origin with
  | server => exact Attempt.yields_throw quiet_nil
  | client =>
    have issued : (g.registry.issue k : Attempt ω Bool).Yields fun deeds _ => Quiet k deeds :=
      Attempt.yields_ask (c := .setIfAbsent (recordKey k) Record.placeholder g.registry.life)
        fun reply => quiet_set reply (.inr (.inl rfl))
    exact Attempt.Yields.bind (fun deeds _ => Quiet k deeds) issued
      (fun deeds _ quiet => Attempt.yields_pure (quiet.append quiet_nil)) fun _ _ quiet => quiet

/-- So is a look at a key. If it finds a result, that was read from the record; otherwise it may have created the
placeholder. -/
theorem quiet_kept (origin : KeyOrigin) :
    (g.kept k origin : Attempt ω _).Yields fun deeds found =>
      Quiet k deeds ∧ ∀ value, found = .ok (some value) → ReadResult k value deeds := by
  refine Attempt.Yields.bind _ quiet_find (fun first found looked => ?_) fun first why looked => ?_
  · obtain ⟨quiet, reads⟩ := looked
    match found with
    | some (.resolved value) =>
      refine Attempt.yields_pure ⟨quiet.append quiet_nil, fun other is => ?_⟩
      cases is
      exact (reads value rfl).mono (List.subset_append_left _ _)
    | some .pending => exact Attempt.yields_pure ⟨quiet.append quiet_nil, nofun⟩
    | none =>
      refine Attempt.Yields.bind _ (quiet_firstSight origin) (fun issue _ issued => ?_) fun issue why issued => ?_
      · exact Attempt.yields_pure ⟨quiet.append (issued.append quiet_nil), nofun⟩
      · exact ⟨quiet.append issued, nofun⟩
  · exact ⟨looked.1, nofun⟩

/-! Resolution, the work under the lock, and the whole call. -/

/-- What a resolution has done: it has not run the operation, and either it stored a text and says so, or it stored none
and a result that it tells was read. -/
structure Resolves (k : String) (deeds : List (Deed ω)) (outcome : Except Failure Resolution) : Prop where
  unworked : ∀ answer, .worked answer ∉ deeds
  told : (outcome = .ok .stored ∧ ∃ deed ∈ deeds, ∃ text, deed.Stores k text) ∨
    ((∀ deed ∈ deeds, ∀ text, ¬ deed.Stores k text) ∧
      ∀ resolution, outcome = .ok resolution → ∃ other, resolution = .alreadyResolved other ∧ ReadResult k other deeds)

/-- A resolution that only did quiet deeds has stored nothing. It may still have found that somebody else's result was
there before. -/
theorem Resolves.of_quiet {outcome : Except Failure Resolution} (quiet : Quiet k deeds)
    (told : ∀ resolution, outcome = .ok resolution → ∃ other, resolution = .alreadyResolved other ∧ ReadResult k other deeds) :
    Resolves k deeds outcome where
  unworked answer worked := (quiet _ worked).1 answer rfl
  told := .inr ⟨fun deed done => (quiet deed done).2, told⟩

/-- A call that stores a result ends the resolution: quiet deeds stand before it, and nothing is left to do behind it. -/
theorem Resolves.of_stored {deed : Deed ω} {text : String} (quiet : Quiet k before) (stores : deed.Stores k text) :
    Resolves k (before ++ [deed]) (.ok .stored) where
  unworked answer worked := by
    rcases List.mem_append.mp worked with early | last
    · exact (quiet _ early).1 answer rfl
    · rw [← List.mem_singleton.mp last] at stores
      exact Deed.not_stores_worked stores
  told := .inl ⟨rfl, deed, by simp, text, stores⟩

/-- A resolution that looks the record up and goes on with what it finds. A result was read and is told, a record that
is pending is an error, and where nothing is found the rest decides. -/
theorem resolves_find {onward : Option Record → Attempt ω Resolution} (quiet : Quiet k before)
    (found : ∀ other, onward (some (.resolved other)) = pure (.alreadyResolved other))
    (pending : ∃ why, onward (some .pending) = throw why)
    (nothing : ∀ looked, Quiet k (before ++ looked) →
      (onward none).Yields fun rest outcome => Resolves k (before ++ looked ++ rest) outcome) :
    (r.find? k >>= onward : Attempt ω _).Yields fun rest outcome => Resolves k (before ++ rest) outcome := by
  refine Attempt.Yields.bind _ quiet_find (fun looked record told => ?_) fun looked why told => ?_
  · simp only [← List.append_assoc]
    have all := quiet.append told.1
    match record with
    | some (.resolved other) =>
      rw [found other]
      refine Attempt.yields_pure (.of_quiet (all.append quiet_nil) fun resolution is => ⟨other, ?_, ?_⟩)
      · cases is
        rfl
      · exact (told.2 other rfl).mono (by simp)
    | some .pending =>
      obtain ⟨why, is⟩ := pending
      rw [is]
      exact Attempt.yields_throw (.of_quiet (all.append quiet_nil) nofun)
    | none => exact nothing looked all
  · exact .of_quiet (quiet.append told.1) nofun

/-- Resolving a key stores the result, or tells of one that was read, or fails without having stored any. The swap and
the write are the two calls that can store it, and the way from one to the other leads over a look. -/
theorem resolves_resolve (value : Json.Value) : (r.resolve k value : Attempt ω _).Yields (Resolves k) := by
  have result : (Record.resolved value).text ≠ Record.placeholder := Record.text_ne_placeholder value
  unfold Registry.resolve
  refine Attempt.Yields.bind (fun deeds reply =>
      deeds = [.called (.compareAndSet (recordKey k) Record.placeholder (Record.resolved value).text r.life) reply])
    (Attempt.yields_ask (c := .compareAndSet _ _ _ _) fun reply => rfl) (fun deeds replaced is => ?_) fun deeds why is => ?_
  · subst is
    cases replaced with
    | true => exact Attempt.yields_pure (.of_stored quiet_nil ⟨result, .inr ⟨_, _, rfl⟩⟩)
    | false =>
      refine resolves_find (quiet_replace _ (by simp)) (fun other => rfl) ⟨_, rfl⟩ fun looked quiet => ?_
      refine Attempt.Yields.bind (fun deeds reply =>
          deeds = [.called (.setIfAbsent (recordKey k) (Record.resolved value).text r.life) reply])
        (Attempt.yields_ask (c := .setIfAbsent _ _ _) fun reply => rfl) (fun deeds created is => ?_) fun deeds why is => ?_
      · subst is
        cases created with
        | true =>
          refine Attempt.yields_pure ?_
          rw [List.append_nil]
          exact .of_stored quiet ⟨result, .inl ⟨_, rfl⟩⟩
        | false =>
          simp only [← List.append_assoc]
          refine resolves_find (quiet.append (quiet_set _ (.inr (.inr (by simp))))) (fun other => rfl) ⟨_, rfl⟩
            fun looked quiet => ?_
          exact Attempt.yields_throw (.of_quiet (quiet.append quiet_nil) nofun)
      · subst is
        refine .of_quiet (quiet.append (quiet_set _ (.inr (.inr (by simp))))) nofun
  · subst is
    exact .of_quiet (quiet_replace _ (by simp)) nofun

end

section

variable {k : String} {g : Guard} {codec : Codec τ} {deeds all : List (Deed (Except Failure τ))}
  {outcome : Except Failure (τ × Bool)}

/-- Quiet deeds before or after a call change nothing of what became of it: each part of the account is told by deeds
that are still there, and no new deed runs the operation or stores a result. -/
theorem Account.among (account : Account codec k deeds outcome) (more : deeds ⊆ all)
    (quiet : ∀ deed ∈ all, deed ∈ deeds ∨ deed.IsQuiet k) : Account codec k all outcome where
  own result is := by
    obtain ⟨worked, deed, done, stores⟩ := account.own result is
    exact ⟨more worked, deed, more done, stores⟩
  replayed result is := by
    obtain ⟨value, read, decoded⟩ := account.replayed result is
    exact ⟨value, read.mono more, decoded⟩
  failed why worked := by
    rcases quiet _ worked with here | idle
    · exact account.failed why here
    · exact absurd rfl (idle.1 (.error why))
  stored deed done text stores := by
    rcases quiet deed done with here | idle
    · exact account.stored deed here text stores
    · exact absurd stores (idle.2 text)

/-- So it is for quiet deeds in front, such as the admission and the check of the key. -/
theorem Account.after {before : List (Deed (Except Failure τ))} (account : Account codec k deeds outcome)
    (quiet : Quiet k before) : Account codec k (before ++ deeds) outcome := by
  refine account.among (List.subset_append_right _ _) fun deed done => ?_
  rcases List.mem_append.mp done with early | late
  · exact .inr (quiet deed early)
  · exact .inl late

/-- And for quiet deeds behind, such as the release of the lock. -/
theorem Account.followed {after : List (Deed (Except Failure τ))} (account : Account codec k deeds outcome)
    (quiet : Quiet k after) : Account codec k (deeds ++ after) outcome := by
  refine account.among (List.subset_append_left _ _) fun deed done => ?_
  rcases List.mem_append.mp done with early | late
  · exact .inl early
  · exact .inr (quiet deed late)

/-- Deeds of which none failed to work and none stored anything, with no result of their own. -/
structure Unstored (k : String) (deeds : List (Deed (Except Failure τ))) : Prop where
  unfailed : ∀ why, .worked (.error why) ∉ deeds
  unstored : ∀ deed ∈ deeds, ∀ text, ¬ deed.Stores k text

/-- Quiet deeds have neither failed in the operation nor stored a result. -/
theorem Quiet.unstored (quiet : Quiet k deeds) : Unstored k deeds where
  unfailed why worked := (quiet _ worked).1 (.error why) rfl
  unstored deed done := (quiet deed done).2

/-- A call that fails without a result that it stored. Nothing is owed to anybody: it returned nothing, and nothing of
it can be replayed. -/
theorem Unstored.fails (unstored : Unstored k deeds) (why : Failure) : Account codec k deeds (.error why) where
  own := nofun
  replayed := nofun
  failed why worked := absurd worked (unstored.unfailed why)
  stored deed done text stores := absurd stores (unstored.unstored deed done text)

/-- A call that returns a result which it has read. That is marked as replayed, and the value it was decoded from is the
one that was read. -/
theorem Unstored.replays {value : Json.Value} {result : τ} (unstored : Unstored k deeds) (read : ReadResult k value deeds)
    (decoded : codec.decode value = .ok result) : Account codec k deeds (.ok (result, true)) where
  own := nofun
  replayed other is := by
    cases is
    exact ⟨value, read, decoded⟩
  failed why worked := absurd worked (unstored.unfailed why)
  stored deed done text stores := absurd stores (unstored.unstored deed done text)

/-- A call whose operation gave a result, of which a text was stored afterwards. It returns the result as its own, and
the operation gave no other, since it ran only once. -/
theorem Account.of_stored {result : τ} {deed : Deed (Except Failure τ)} {text : String}
    (unworked : ∀ answer, .worked answer ∉ deeds) (done : deed ∈ deeds) (stores : deed.Stores k text) :
    Account codec k (.worked (.ok result) :: deeds) (.ok (result, false)) where
  own other is := by
    cases is
    exact ⟨List.mem_cons_self, deed, List.mem_cons_of_mem _ done, text, stores⟩
  replayed := nofun
  failed why failed := by
    rcases List.mem_cons.mp failed with is | later
    · cases is
    · exact absurd later (unworked _)
  stored _ _ _ _ := ⟨result, rfl⟩

/-- A result that was read is decoded: either it gives a result, which is replayed, or it can not be decoded, and the
call fails. -/
theorem Unstored.decodes {value : Json.Value} (unstored : Unstored k deeds) (read : ReadResult k value deeds) :
    ((do return (← Guard.decoded codec value, true)) : Attempt (Except Failure τ) (τ × Bool)).Yields
      fun rest outcome => Account codec k (deeds ++ rest) outcome := by
  refine Attempt.Yields.bind (fun rest outcome => rest = [] ∧ outcome = (codec.decode value).mapError Guard.unreadable)
    (Attempt.yields_ofResult ⟨rfl, rfl⟩) ?_ ?_
  · rintro rest result ⟨rfl, is⟩
    refine Attempt.yields_pure ?_
    rw [List.append_nil, List.append_nil]
    cases decoded : codec.decode value with
    | error cause =>
      rw [decoded] at is
      cases is
    | ok other =>
      rw [decoded] at is
      cases is
      exact unstored.replays read decoded
  · rintro rest why ⟨rfl, -⟩
    rw [List.append_nil]
    exact unstored.fails why

/-- An operation that gave a result has stored nothing yet, and it did not fail. -/
theorem unstored_worked (result : τ) : Unstored k [.worked (.ok result)] where
  unfailed why failed := by cases List.mem_singleton.mp failed
  unstored deed done text stores := by
    rw [List.mem_singleton.mp done] at stores
    exact Deed.not_stores_worked stores

/-- Neither has a resolution that does not say so. The deeds before it and its own together store nothing, and a result
of somebody else that it tells of was read. -/
theorem Unstored.resolved {rest : List (Deed (Except Failure τ))} {outcome : Except Failure Resolution}
    (unstored : Unstored k deeds) (resolves : Resolves k rest outcome) (foreign : outcome ≠ .ok .stored) :
    Unstored k (deeds ++ rest) ∧
      ∀ resolution, outcome = .ok resolution → ∃ other, resolution = .alreadyResolved other ∧ ReadResult k other rest := by
  rcases resolves.told with ⟨stored, -⟩ | ⟨idle, read⟩
  · exact absurd stored foreign
  · have all : Unstored k (deeds ++ rest) := {
      unfailed := fun why worked => (List.mem_append.mp worked).elim (unstored.unfailed why) (resolves.unworked _)
      unstored := fun deed done => (List.mem_append.mp done).elim (unstored.unstored deed) (idle deed) }
    exact ⟨all, read⟩

/-- The operation gave a result, which is then stored unless another one is there. It may not be encoded, be stored,
give way to the other one, or fail to be stored; each of these is one of the cases above. -/
theorem account_given (result : τ) :
    ((do
      let value ← Attempt.ofResult ((codec.encode result).mapError Guard.unreadable)
      match ← g.registry.resolve k value with
      | .stored => return (result, false)
      | .alreadyResolved other => return (← Guard.decoded codec other, true)) :
        Attempt (Except Failure τ) (τ × Bool)).Yields
      fun rest outcome => Account codec k (.worked (.ok result) :: rest) outcome := by
  have worked : Unstored k [(.worked (.ok result) : Deed (Except Failure τ))] := unstored_worked result
  refine Attempt.Yields.bind (fun rest _ => rest = []) (Attempt.yields_ofResult rfl) ?_ ?_
  · rintro _ value rfl
    refine Attempt.Yields.bind _ (resolves_resolve value) (fun deeds resolution resolves => ?_) fun deeds why resolves => ?_
    · cases resolution with
      | stored =>
        refine Attempt.yields_pure ?_
        rw [List.append_nil]
        rcases resolves.told with ⟨-, deed, done, text, stores⟩ | ⟨-, foreign⟩
        · exact .of_stored resolves.unworked done stores
        · obtain ⟨other, is, -⟩ := foreign _ rfl
          cases is
      | alreadyResolved other =>
        obtain ⟨unstored, read⟩ := worked.resolved resolves (by simp)
        obtain ⟨_, same, reads⟩ := read _ rfl
        cases same
        exact unstored.decodes (reads.mono (List.subset_append_right _ _))
    · exact (worked.resolved resolves (by simp)).1.fails why
  · rintro _ why rfl
    exact worked.fails why

/-- A look at the key comes first: a result that is kept is replayed, and else the rest gives account, with the deeds of
the look before it. -/
theorem account_kept (origin : KeyOrigin) {rest : Attempt (Except Failure τ) (τ × Bool)}
    (onward : rest.Yields (Account codec k)) :
    ((do
      match ← g.kept k origin with
      | some value => return (← Guard.decoded codec value, true)
      | none => rest) : Attempt (Except Failure τ) (τ × Bool)).Yields (Account codec k) := by
  refine Attempt.Yields.bind _ (quiet_kept origin) ?_ fun look why looked => looked.1.unstored.fails why
  rintro look found ⟨quiet, read⟩
  cases found with
  | some value => exact quiet.unstored.decodes (read value rfl)
  | none => exact onward.mono fun deeds outcome account => account.after quiet

/-- What is done under the lock: another look, the operation, and what is done with its answer. A failure of the
operation ends the call with nothing stored. -/
theorem account_locked (origin : KeyOrigin) : (g.locked codec k origin Attempt.work).Yields (Account codec k) := by
  apply account_kept
  refine Attempt.Yields.bind (fun deeds answer => deeds = [.worked answer]) (Attempt.yields_work fun answer => rfl) ?_ ?_
  · rintro _ result rfl
    exact account_given result
  · rintro _ why rfl
    constructor
    · intro result is
      cases is
    · intro result is
      cases is
    · intro why' worked
      cases List.mem_singleton.mp worked
      rfl
    · intro deed done text stores
      rw [List.mem_singleton.mp done] at stores
      exact absurd stores Deed.not_stores_worked

/-- An admitted call on an idempotent route. The looks, the lock and its release are quiet, so the account is that of
what is done under the lock. -/
theorem account_once (origin : KeyOrigin) : (g.once codec k origin Attempt.work).Yields (Account codec k) := by
  apply account_kept
  refine Attempt.Yields.bind _ (quiet_acquire k g.lockLife) ?_ fun tried why acquired => acquired.unstored.fails why
  intro tried lease acquired
  cases lease with
  | none => exact Attempt.yields_throw ((acquired.append quiet_nil).unstored.fails _)
  | some lease =>
    have locked : ((g.locked codec k origin Attempt.work).holding lease).caught.Yields
        fun deeds caught => ∃ outcome, caught = .ok outcome ∧ Account codec k deeds outcome :=
      Attempt.Yields.caught (Attempt.Yields.mono ((account_locked origin).holding lease)
        fun deeds outcome account => ⟨outcome, rfl, account⟩)
    refine Attempt.Yields.bind _ locked ?_ ?_
    · rintro inside _ ⟨outcome, same, account⟩
      cases same
      have released : (lease.release : Attempt (Except Failure τ) Unit).Yields fun deeds outcome =>
          Quiet k deeds ∧ outcome = .ok () := quiet_release lease
      refine Attempt.Yields.bind _ released (fun given _ returned => ?_) fun given why returned => ?_
      · refine Attempt.yields_ofResult ?_
        rw [List.append_nil]
        exact (account.followed returned.1).after acquired
      · cases returned.2
    · rintro inside why ⟨outcome, is, -⟩
      cases is

/-! Passages. -/

/-- The operation answers once at most, because it is invoked at one place only among the deeds. -/
theorem Gated.answer_unique {passage : Passage τ} {left : Program (Except Failure τ) (Except Failure (Guarded τ))}
    {answer answer' : Except Failure τ} (gated : Gated g passage deeds left) (worked : .worked answer ∈ deeds)
    (worked' : .worked answer' ∈ deeds) : answer = answer' := by
  obtain ⟨before, after, parts⟩ := List.append_of_mem worked
  obtain ⟨before', after', parts'⟩ := List.append_of_mem worked'
  have same := gated.once before before' (.inr ⟨answer, after, parts⟩) (.inr ⟨answer', after', parts'⟩)
  rw [parts, same] at parts'
  cases List.append_cancel_left parts'
  rfl

/-- The result of a guarded call and whether it is replayed. -/
def Guarded.told (guarded : Guarded τ) : τ × Bool := (guarded.result, guarded.replayed)

variable {passage : Passage τ} {returned : Except Failure (Guarded τ)}

/-- What is told of the admission changes nothing of what became of a call: the result and the mark of a replay are
handed on as they are. -/
theorem yields_told {p : Attempt (Except Failure τ) (τ × Bool)} {admission : Admission}
    {post : List (Deed (Except Failure τ)) → Except Failure (τ × Bool) → Prop} (yields : p.Yields post) :
    ((do
      let (result, replayed) ← p
      return ⟨result, replayed, admission⟩) : Attempt (Except Failure τ) (Guarded τ)).Yields
        fun deeds outcome => post deeds (outcome.map Guarded.told) := by
  refine Attempt.Yields.bind _ yields (fun deeds told holds => Attempt.yields_pure ?_) fun deeds why holds => holds
  rw [List.append_nil]
  exact holds

/-- A passage that presents a key on an idempotent route gives account of its call at the key. Admission and the check
of the key are quiet and stand before it; if either fails, so does the passage. -/
theorem account_passage {origin : KeyOrigin} (route : passage.policy.origin = some origin) (presented : passage.key = some k)
    (ends : (passage.program g).Ends deeds returned) : Account passage.codec k deeds (returned.map Guarded.told) := by
  have admitted : (g.throttle.pass passage.bucket passage.policy : Attempt (Except Failure τ) _).Yields
      fun deeds _ => Quiet k deeds := quiet_pass _ _ _
  have checked : (Registry.checkKey k : Attempt (Except Failure τ) Unit).Yields fun deeds _ => Quiet k deeds :=
    quiet_checkKey k
  have yields : (g.run passage.codec ⟨passage.bucket, passage.policy, passage.key⟩ Attempt.work).Yields
      fun deeds outcome => Account passage.codec k deeds (outcome.map Guarded.told) := by
    refine Attempt.Yields.bind _ admitted (fun first admission quiet => ?_) fun first why quiet => quiet.unstored.fails why
    simp only [route, presented]
    refine Attempt.Yields.bind _ checked (fun check _ valid => ?_) fun check why valid =>
      (quiet.append valid).unstored.fails why
    refine (yields_told (account_once origin)).mono fun rest outcome account => ?_
    exact (account.after valid).after quiet
  exact yields deeds returned ends

/-- What a passage returns, told by what its operation gave. -/
structure Returned (passage : Passage τ) (deeds : List (Deed (Except Failure τ))) (returned : Except Failure (Guarded τ)) :
    Prop where
  own : ∀ guarded, returned = .ok guarded → guarded.replayed = false → .worked (.ok guarded.result) ∈ deeds
  failed : ∀ why, .worked (.error why) ∈ deeds → returned = .error why
  replayed : ∀ guarded, returned = .ok guarded → guarded.replayed = true →
    ∃ origin key, passage.policy.origin = some origin ∧ passage.key = some key
  /-- Where nothing is kept, a result can not be lost. -/
  plain : passage.policy.origin = none → ∀ result, .worked (.ok result) ∈ deeds →
    ∃ guarded, returned = .ok guarded ∧ guarded.replayed = false

/-- A passage that ends before its operation returns a failure: there is no run among its deeds. -/
theorem Returned.of_quiet (quiet : Quiet k deeds) (why : Failure) : Returned passage deeds (.error why) where
  own := nofun
  failed why worked := absurd rfl ((quiet _ worked).1 (.error why))
  replayed := nofun
  plain _ result worked := absurd rfl ((quiet _ worked).1 (.ok result))

/-- A passage whose operation is its last deed, and whose answer it passes on. This is how a route without keys ends,
and there it is the only run there is. -/
theorem Returned.of_answer {answer : Except Failure τ} {admission : Admission} (quiet : Quiet k deeds) :
    Returned passage (deeds ++ [.worked answer]) (answer.map fun result => ⟨result, false, admission⟩) := by
  have unique {other : Except Failure τ} (worked : .worked other ∈ deeds ++ [.worked answer]) : other = answer := by
    rcases List.mem_append.mp worked with early | here
    · exact absurd rfl ((quiet _ early).1 other)
    · exact Deed.worked.inj (List.mem_singleton.mp here)
  constructor
  case own =>
    intro guarded is own
    cases answer with
    | ok result =>
      cases is
      simp
    | error why => cases is
  case failed =>
    intro why worked
    rw [← unique worked]
    rfl
  case replayed =>
    intro guarded is replayed
    cases answer <;> cases is
    cases replayed
  case plain =>
    intro _ result worked
    rw [← unique worked]
    exact ⟨_, rfl, rfl⟩

/-- Whatever its route and its key, a passage returns its operation's own result, or the failure of its operation, or a
result that is replayed because it presents a key on an idempotent route. -/
theorem returned_passage (ends : (passage.program g).Ends deeds returned) : Returned passage deeds returned := by
  have admitted : (g.throttle.pass passage.bucket passage.policy : Attempt (Except Failure τ) _).Yields
      fun deeds _ => Quiet "" deeds := quiet_pass _ _ _
  cases route : passage.policy.origin with
  | none =>
    have yields : (g.run passage.codec ⟨passage.bucket, passage.policy, passage.key⟩ Attempt.work).Yields
        (Returned passage) := by
      refine Attempt.Yields.bind _ admitted (fun first admission quiet => ?_) fun first why quiet => .of_quiet quiet why
      simp only [route]
      refine Attempt.Yields.bind (fun deeds answer => deeds = [.worked answer]) (Attempt.yields_work fun answer => rfl) ?_ ?_
      · rintro _ result rfl
        refine Attempt.yields_pure ?_
        rw [List.append_nil]
        exact Returned.of_answer quiet
      · rintro _ why rfl
        have passed : Returned passage (first ++ [.worked (.error why)])
            ((.error why : Except Failure τ).map fun result => ⟨result, false, admission⟩) := .of_answer quiet
        exact passed
    exact yields deeds returned ends
  | some origin =>
    cases presented : passage.key with
    | none =>
      have yields : (g.run passage.codec ⟨passage.bucket, passage.policy, passage.key⟩ Attempt.work).Yields
          (Returned passage) := by
        refine Attempt.Yields.bind _ admitted (fun first admission quiet => ?_) fun first why quiet => .of_quiet quiet why
        simp only [route, presented]
        exact Attempt.yields_throw (.of_quiet (quiet.append quiet_nil) _)
      exact yields deeds returned ends
    | some key =>
      have account := account_passage route presented ends
      constructor
      case own =>
        rintro guarded rfl own
        exact (account.own guarded.result (by simp [Except.map, Guarded.told, own])).1
      case failed =>
        intro why worked
        have failed := account.failed why worked
        cases returned with
        | ok guarded => cases failed
        | error why' =>
          cases failed
          rfl
      case replayed => exact fun _ _ _ => ⟨origin, key, route, presented⟩
      case plain =>
        intro unkept
        rw [route] at unkept
        cases unkept

end

end Turnstile
