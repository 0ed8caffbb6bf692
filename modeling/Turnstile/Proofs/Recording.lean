import Turnstile.Proofs.Json.Shape
import Turnstile.Proofs.Json.Sorted
import Turnstile.Proofs.Text.Base64
import Turnstile.Recording

/-!
Recordings on their way through the store and back into responses.

The cached form of a recording is decoded to the recording without a body that the cached form can not carry. The
fields of a recorded response are the fields of the response in groups of one name, without those of the connection and
those whose value has no text, and they stand in every response that is made of the recording.
-/

namespace Turnstile.Recording

open Http (Field Headers Response)
open Json (Value)

/-! The cached form. -/

/-- `put` inserts a member by the order of the names. `headers` comes before `status`. -/
theorem put_headers (headers status : Value) :
    Value.put "headers" headers [("status", status)] = [("headers", headers), ("status", status)] := if_pos (by decide)

/-- And `body` before `headers`, whatever follows. -/
theorem put_body (body headers : Value) (rest : List (String × Value)) :
    Value.put "body" body (("headers", headers) :: rest) = ("body", body) :: ("headers", headers) :: rest :=
  if_pos (by decide)

/-- `body_omitted` goes past `body`, of which it is a longer form, and comes to stand before `headers`. -/
theorem put_bodyOmitted (omitted body headers : Value) (rest : List (String × Value)) :
    Value.put "body_omitted" omitted (("body", body) :: ("headers", headers) :: rest) =
      ("body", body) :: ("body_omitted", omitted) :: ("headers", headers) :: rest := by
  have behind : ¬ "body_omitted" < "body" := by decide
  have before : "body_omitted" < "headers" := by decide
  rw [Value.put, if_neg behind, if_neg (by decide), Value.put, if_pos before]

/-- The cached form with its members in the order of their names, which is how a stored value has them. The last two
differ only in where `status` stands, and the items of `headers` are arrays of texts, where there is nothing to sort. -/
theorem cached_sorted (r : Recording) : r.cached.sorted = .object
    [("body", .text r.normal.bodyText), ("body_omitted", .bool r.normal.bodyOmitted),
      ("headers", headersValue r.normal.headers), ("status", .ofNat r.normal.status.toNat)] := by
  have items : (headersValue r.normal.headers).sorted = headersValue r.normal.headers := by
    simp [headersValue, Value.sorted, Value.sortedItems_eq]
  simp only [cached, Value.sorted, Value.sortedMembers, items]
  rw [Value.put, put_headers, put_body, put_bodyOmitted]
  rfl

/-- The cached form can be written and read back: its only number is the status, which has 16 bits, and no object in it
names a member twice. -/
theorem cached_plain (r : Recording) : r.cached.Plain := by
  have headers : (headersValue r.normal.headers).Plain := by
    apply Value.plain_array.mpr
    intro v here
    obtain ⟨h, -, rfl⟩ := List.mem_map.mp here
    exact ⟨trivial, trivial, trivial⟩
  have status : (Value.ofNat r.normal.status.toNat).Plain := by
    have := r.normal.status.toNat_lt
    constructor <;> simp [signedLimit, word64Limit]
    omega
  exact ⟨status, headers, trivial, trivial, trivial⟩

/-- It is at most three levels deep: the object, the list of the fields and the pair that is one field. No recording
comes near the depth at which a reader gives up. -/
theorem cached_levels (r : Recording) : r.cached.levels ≤ 3 := by
  have headers : (headersValue r.normal.headers).levels ≤ 2 := by
    apply Nat.succ_le_succ
    apply Value.itemsLevels_le.mpr
    intro v here
    obtain ⟨h, -, rfl⟩ := List.mem_map.mp here
    exact Nat.le_refl 1
  apply Nat.succ_le_succ
  apply Value.membersLevels_le.mpr
  simp [Value.ofNat, Value.levels, headers]

/-- The list of fields is decoded to the fields it was made of, in their order and with the names that repeat. -/
theorem pairsOf_headersValue (headers : List (String × String)) : pairsOf (headersValue headers) = .ok headers := by
  induction headers with
  | nil => rfl
  | cons h rest inductionHypothesis =>
    simp only [headersValue, pairsOf, List.map_cons, List.mapM_cons] at inductionHypothesis ⊢
    rw [inductionHypothesis]
    rfl

/-- The draft of a recording that has all its parts. -/
def draft (r : Recording) : Draft := ⟨some r.status.toNat, some r.headers, some r.bodyText, some r.bodyOmitted⟩

/-- A draft with all four parts of a recording is finished to the recording: the body is decoded from the text that
Base64 made of it, and the status fits into the 16 bits it came from. -/
theorem finish_draft (r : Recording) : r.draft.finish = .ok r := by
  have body : Base64.decode (Http.octetsOf r.bodyText) = .ok r.body.data.toList := Base64.decode_encode _
  simp only [draft, Draft.finish, ofParts, Option.getD_some, body]
  rw [UInt16.ofNat_toNat]

/-- What is cached is decoded to the recording without a body that can not be cached. The members come in the order of
their names, and the draft takes them in any. -/
theorem ofValue_cached (r : Recording) : ofValue r.cached.sorted = .ok r.normal := by
  have status : wholeOf word16Limit "u16" (.ofNat r.normal.status.toNat) = .ok r.normal.status.toNat := by
    rw [Value.ofNat, wholeOf]
    exact Json.Reader.wholeBelow_natCast r.normal.status.toNat_lt
  have taken : [("body", Value.text r.normal.bodyText), ("body_omitted", .bool r.normal.bodyOmitted),
        ("headers", headersValue r.normal.headers), ("status", .ofNat r.normal.status.toNat)].foldlM
          (fun (d : Draft) m => d.take m.1 m.2) Draft.empty =
      .ok r.normal.draft := by
    simp [Draft.take, Draft.empty, textOf, flagOf, pairsOf_headersValue, status]
    rfl
  rw [cached_sorted, ofValue, taken]
  exact r.normal.finish_draft

/-! Fields that are kept. -/

/-- A field that does not belong to the connection and has a text. -/
def keeps (f : Field) : Bool := !connectionFields.contains f.name && f.isTextual

/-- The fields that a recording has for a response. -/
def fields (r : Recording) : Headers := ⟨r.headers.filterMap fun h => Field.ofText? h.1 h.2⟩

/-- A field goes to its text and back if it is kept. Those of the connection are dropped by name, and those that have no
text by value; for the rest a sound field is what its text reads as. -/
theorem field_again {f : Field} (sound : f.Sound) :
    (if connectionFields.contains f.name then none else (Http.valueText? f.value).map (f.name, ·)).bind
      (fun h => Field.ofText? h.1 h.2) = if keeps f then some f else none := by
  unfold keeps
  cases connectionFields.contains f.name with
  | true => rfl
  | false =>
    rw [if_neg Bool.false_ne_true, Option.bind_map]
    exact sound.again

/-- The fields of a recorded response are those that are kept, in groups of one name. The grouping is the one that the
header map itself has, so recording loses fields and moves none. -/
theorem fields_replayable {h : Headers} (sound : h.Sound) :
    (replayable h).filterMap (fun h => Field.ofText? h.1 h.2) = h.grouped.filter keeps := by
  have all : ∀ f ∈ h.grouped, f.Sound := fun f here => sound f (Headers.mem_groupedFrom here)
  rw [replayable, List.filterMap_filterMap]
  generalize h.grouped = fields at all
  induction fields with
  | nil => rfl
  | cons f rest inductionHypothesis =>
    have later := inductionHypothesis fun g here => all g (List.mem_cons_of_mem _ here)
    rw [List.filterMap_cons, field_again (all f List.mem_cons_self), List.filter_cons, later]
    cases keeps f <;> rfl

/-- Of each name the values with a text are kept, in their order, unless the name belongs to the connection. Grouping by
name moves values of different names only, so that a filter on one name does not see it. -/
theorem values_fields {response : Response} (sound : response.headers.Sound) (name : String) :
    (ofResponse response).fields.values name =
      if name ∈ connectionFields then [] else (response.headers.values name).filter (·.all Http.isTextOctet) := by
  have kept : (ofResponse response).headers = replayable response.headers := by
    unfold ofResponse
    split <;> rfl
  have named (f : Field) : (f.name == name && keeps f) =
      if name ∈ connectionFields then false else (f.name == name && f.value.all Http.isTextOctet) := by
    by_cases here : f.name = name
    · subst here
      by_cases connection : f.name ∈ connectionFields <;> simp [keeps, connection, Field.isTextual]
    · rw [beq_false_of_ne here]
      simp
  unfold fields
  rw [kept, fields_replayable sound, ← Headers.values_grouped response.headers]
  unfold Headers.values
  simp only [List.filter_filter, List.filter_map, named]
  split
  · simp
  · congr 2
    funext f
    simp [Bool.and_comm]

/-! Responses of recordings. -/

/-- The fields of the response that a recording stands for. With a body they are the recorded ones; without one the
content type is gone with it, and the field that says so is set. -/
theorem values_respond (r : Recording) (name : String) :
    r.respond.headers.values name =
      if r.bodyOmitted then
        if name = "idempotent-body-omitted" then [Http.octetsOf "true"]
        else if name = "content-type" then [] else r.fields.values name
      else r.fields.values name := by
  change (if r.bodyOmitted then (r.fields.remove "content-type").set "idempotent-body-omitted" "true"
    else r.fields).values name = _
  split
  · rw [Headers.values_set, Headers.values_remove]
  · rfl

/-- What is captured is the recording of a response of success, which has the response's status: one of 200 to 299,
which is not changed by being kept in 16 bits. -/
theorem captured {response : Response} {r : Recording} (captured : capture response = .ok r) :
    Http.isSuccess response.status = true ∧ r = ofResponse response ∧ r.respond.status = response.status := by
  unfold capture at captured
  split at captured
  · rename_i success
    have status : r.status = .ofNat response.status := by
      rw [← Except.ok.inj captured]
      unfold ofResponse
      split <;> rfl
    have range : 200 ≤ response.status ∧ response.status < 300 := by simpa [Http.isSuccess] using success
    have small : (UInt16.ofNat response.status).toNat = response.status := by
      rw [UInt16.toNat_ofNat']
      omega
    refine ⟨success, (Except.ok.inj captured).symm, ?_⟩
    unfold respond
    rw [status, small, if_pos (by simp [Http.isStatus]; omega)]
  · cases captured

/-- What is recorded of the body: all of it when it can be read within the bound, and otherwise nothing, with the mark
that it is left out. -/
theorem body_ofResponse (response : Response) :
    ((ofResponse response).body, (ofResponse response).bodyOmitted) =
      match response.body.octets? maxReadBody with
      | some octets => (octets, false)
      | none => (.empty, true) := by
  unfold ofResponse
  cases response.body.octets? maxReadBody <;> rfl

end Turnstile.Recording
