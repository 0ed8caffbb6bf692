import Turnstile.Proofs.Json.Depth
import Turnstile.Proofs.Json.Shape
import Turnstile.Record

/-!
Results are read as they are written.

The text of a resolved record tells the state first and then the result with its members sorted. A reader of records
finds both where it looks for them and nothing else, so it reads the result that was written. Where the result is nested
too deeply the reader comes to it all the same, and fails there. The text of a result is that of no other one, because a
reader with levels enough would read both from it.
-/

namespace Turnstile.Json.Reader

open Text (Glyph)
open Value

variable {α : Type} {depth fuel : Nat} {ahead rest : List Glyph} {name state : String} {v : Value}

/-- The state of a record is read if it is one of those that are known. -/
theorem reads_variant {known : List String} (here : state ∈ known) :
    (variant known).Reads depth ((stringChars state).map .char ++ rest) rest state := by
  apply reads_skipBlanks_bind (unblank_char (by decide))
  apply reads_stringAs
  rw [if_pos (List.contains_iff_mem.mpr here)]

/-- The next member is one that matters, so its name is told and nothing is skipped. -/
theorem reads_nextRelevant_member {names : List String} (here : name ∈ names) (first : Bool) (v : Value)
    (members : List (String × Value)) :
    (do nextRelevant names (← steps) first : Reader (Option String)).Reads depth
      ((if first then membersChars ((name, v) :: members) else moreMembers ((name, v) :: members)).map .char ++
        .char '\x7d' :: rest)
      (.char ':' :: (v.chars.map .char ++ ((moreMembers members).map .char ++ .char '\x7d' :: rest))) (some name) := by
  apply reads_steps_bind
  apply Reads.bind (reads_hasMember_member first name v members)
  apply Reads.bind (reads_string name)
  rw [if_pos (List.contains_iff_mem.mpr here)]
  exact reads_pure

/-- There is no further member, and the brace is left for what closes the record. -/
theorem reads_nextRelevant_end {names : List String} {first : Bool} :
    (do nextRelevant names (← steps) first : Reader (Option String)).Reads depth (.char '\x7d' :: rest)
      (.char '\x7d' :: rest) none := by
  apply reads_steps_bind
  apply Reads.bind reads_hasMember_end
  exact reads_pure

/-- The members of a resolved record lead to its content. Behind the content there is nothing left to find, whatever the
content was read as. -/
theorem recordMembers_leads (depth : Nat) (rest : List Glyph) (v : Value) : ∃ ended : Record → Reader Record,
    (∀ r, (ended r).Reads depth (.char '\x7d' :: rest) (.char '\x7d' :: rest) r) ∧
    recordMembers.LeadsTo depth
      ((membersChars [("state", .text "resolved"), ("value", v)]).map .char ++ .char '\x7d' :: rest)
      (recordContent "resolved" >>= ended) (v.chars.map .char ++ .char '\x7d' :: rest) := by
  let last := v.chars.map Glyph.char ++ .char '\x7d' :: rest
  let behind := (moreMembers [("value", v)]).map Glyph.char ++ .char '\x7d' :: rest
  let all := (membersChars [("state", .text "resolved"), ("value", v)]).map Glyph.char ++ .char '\x7d' :: rest
  have names : "state" ∈ ["state", "value"] ∧ "value" ∈ ["state", "value"] := by decide
  have first : (do nextRelevant ["state", "value"] (← steps) true : Reader (Option String)).Reads depth all
      (.char ':' :: ((Value.text "resolved").chars.map .char ++ behind)) (some "state") :=
    reads_nextRelevant_member names.1 true (.text "resolved") [("value", v)]
  have state : (variant recordStates).Reads depth ((Value.text "resolved").chars.map .char ++ behind) behind
      "resolved" := reads_variant (by decide)
  have second : (do nextRelevant ["state", "value"] (← steps) false : Reader (Option String)).Reads depth behind
      (.char ':' :: last) (some "value") := reads_nextRelevant_member names.2 false v []
  exact ⟨_, fun r => reads_nextRelevant_end.bind reads_pure,
    first.leads (reads_colon.leads (state.leads (second.leads (reads_colon.leads (leadsTo_self _)))))⟩

/-- A resolved record is read along its members, if its content is: the way to the content is the same for all results. -/
theorem reads_recordMembers (plain : v.Plain) (shallow : v.levels < depth) :
    recordMembers.Reads depth
      ((membersChars [("state", .text "resolved"), ("value", v)]).map .char ++ .char '\x7d' :: rest)
      (.char '\x7d' :: rest) (.resolved v.sorted) := by
  obtain ⟨ended, ends, leads⟩ := recordMembers_leads depth rest v
  have content : (recordContent "resolved").Reads depth (v.chars.map .char ++ .char '\x7d' :: rest)
      (.char '\x7d' :: rest) (.resolved v.sorted) :=
    (reads_whole_value plain shallow (unnumbered_moreMembers [])).map Record.resolved
  exact leads.reads (content.bind (ends _))

/-- If the content is nested too deeply, the record is refused, since the way leads there and nowhere else. -/
theorem refuses_recordMembers (rest : List Glyph) (plain : v.Plain) (level : 0 < depth) (deep : depth ≤ v.levels) :
    recordMembers.Refuses depth
      ((membersChars [("state", .text "resolved"), ("value", v)]).map .char ++ .char '\x7d' :: rest) .tooDeep := by
  obtain ⟨ended, -, leads⟩ := recordMembers_leads depth rest v
  have content : (recordContent "resolved").Refuses depth (v.chars.map .char ++ .char '\x7d' :: rest) .tooDeep :=
    (refuses_whole_value plain level deep).map Record.resolved
  exact leads.refuses (content.bind ended)

/-- A stored record is read if its result leaves a level for the braces around it. -/
theorem reads_storedRecord (plain : v.Plain) (shallow : v.levels + 1 < depth) :
    storedRecord.Reads depth ((object [("state", .text "resolved"), ("value", v)]).chars.map .char ++ rest) rest
      (.resolved v.sorted) := by
  obtain ⟨depth, rfl⟩ : ∃ d, depth = d + 1 := ⟨depth - 1, by omega⟩
  have members : recordMembers.Reads depth _ (.char '\x7d' :: rest) _ := reads_recordMembers plain (by omega)
  have brackets := members.enclosed (g := .char '\x7b') (by omega) reads_closeObject
  apply Reads.placed
  apply reads_skipBlanks_bind (unblank_char (by decide))
  simpa [chars] using brackets

/-- And it is refused if the result does not, or if there is no level for the braces at all. -/
theorem refuses_storedRecord (plain : v.Plain) (level : 0 < depth) (deep : depth ≤ v.levels + 1) :
    storedRecord.Refuses depth ((object [("state", .text "resolved"), ("value", v)]).chars.map .char ++ rest)
      .tooDeep := by
  obtain ⟨depth, rfl⟩ : ∃ d, depth = d + 1 := ⟨depth - 1, by omega⟩
  have members (room : 0 < depth) : recordMembers.Refuses depth _ .tooDeep :=
    refuses_recordMembers rest plain room (Nat.le_of_succ_le_succ deep)
  have brackets := refuses_brackets (g := .char '\x7b') closeObject members
  apply Refuses.placed
  apply refuses_skipBlanks_bind (unblank_char (by decide))
  simpa [chars] using brackets

end Turnstile.Json.Reader

namespace Turnstile.Record

open Json (Value)

/-- The glyphs of a record's text are the characters that its value is written with. -/
theorem ofText_text (r : Record) : Text.Glyph.ofText r.text = r.value.chars.map .char := by
  simp [Text.Glyph.ofText, text, Value.render]

/-- What is written for a resolved record is read as the result with its members sorted, wherever there are levels
enough. -/
theorem reads_text {result : Value} (plain : result.Plain) {depth : Nat} (shallow : result.levels + 1 < depth) :
    Json.Reader.storedRecord.Reads depth ((resolved result).value.chars.map .char) [] (.resolved result.sorted) := by
  have nested := Value.levels_sorted result
  have reads : Json.Reader.storedRecord.Reads depth ((resolved result).value.chars.map .char ++ []) []
      (.resolved result.sorted.sorted) := Json.Reader.reads_storedRecord plain.sorted (by omega)
  rwa [List.append_nil, Value.sorted_sorted] at reads

/-- The text of a resolved record is read as the result with its members sorted. -/
theorem read_text {result : Value} (plain : result.Plain) (shallow : result.levels + 1 < Json.depthLimit) :
    read (resolved result).text = .ok (.resolved result.sorted) := by
  unfold read Json.Reader.readText
  rw [ofText_text]
  exact (reads_text plain shallow).readAll

/-- The text of a resolved record is refused if the result leaves no level for the record around it. The members are in
order, so the text is that of the result as it is. -/
theorem read_text_deep {result : Value} (plain : result.Plain) (inOrder : result.InOrder)
    (deep : Json.depthLimit ≤ result.levels + 1) :
    ∃ place, read (resolved result).text = .error ⟨.tooDeep, some place⟩ := by
  have refuses : Json.Reader.storedRecord.Refuses Json.depthLimit ((resolved result).value.chars.map .char ++ [])
      .tooDeep := by
    simp only [value, inOrder.sorted_eq]
    exact Json.Reader.refuses_storedRecord plain (by decide) deep
  rw [List.append_nil] at refuses
  unfold read Json.Reader.readText
  rw [ofText_text]
  exact refuses.readAll

/-- Different results have different texts, however deep they are nested: a reader with levels enough for both would
read one text as both. -/
theorem text_injective {result other : Value} (plain : result.Plain) (plain' : other.Plain)
    (same : (resolved result).text = (resolved other).text) : result.sorted = other.sorted := by
  have glyphs : (resolved result).value.chars.map Text.Glyph.char = (resolved other).value.chars.map .char := by
    rw [← ofText_text, ← ofText_text, same]
  -- A reader with levels enough for both reads one text as both.
  let depth := max result.levels other.levels + 2
  have reads := reads_text plain (show result.levels + 1 < depth by omega)
  have reads' := reads_text plain' (show other.levels + 1 < depth by omega)
  rw [← glyphs] at reads'
  exact resolved.inj (reads.unique reads')

end Turnstile.Record
