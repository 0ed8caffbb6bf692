import Turnstile.Json.Shape
import Turnstile.Proofs.Json.Value

/-!
Readers of a fixed shape read what is written in that shape.

A reader reads a value as an answer if it reads the text of the value so wherever that stands. Strings, whole numbers, flags,
lists and pairs have one lemma each. A record is read along its members: each of them finds its slot, which has not been
filled before, and what the slots have got by the end is the record.
-/

namespace Turnstile.Json.Reader

open Text (Glyph)
open Value

variable {α δ : Type} {depth fuel : Nat} {ahead rest : List Glyph}

/-- How many steps are allowed is counted by what is ahead, and nothing is passed over for it. -/
theorem reads_steps_bind {f : Nat → Reader α} {a : α}
    (next : (f (2 * ahead.length + 4)).Reads depth ahead rest a) : (steps >>= f).Reads depth ahead rest a := by
  intro c here level
  have counted : steps.run c = (.ok (2 * ahead.length + 4), c) := by
    rw [← here]
    rfl
  rw [run_bind counted]
  exact next c here level

/-- A string that is judged well is read as what it is judged to be. -/
theorem reads_stringAs {expected : String} {judge : String → Except Cause α} {s : String} {a : α}
    (judges : judge s = .ok a) :
    (stringAs expected judge).Reads depth ((stringChars s).map .char ++ rest) rest a := by
  apply Reads.placed
  apply reads_skipBlanks_bind (unblank_char (by decide))
  refine reads_bump.bind ((reads_string s).bind ?_)
  rw [judges]
  exact reads_pure

/-- A reader that goes on in its part reads there what the part reads; where it stands is only told in faults. -/
theorem Reads.within {r : Reader α} {a : α} (step : Segment) (reads : r.Reads depth ahead rest a) :
    (within step r).Reads depth ahead rest a := by
  intro c here level
  obtain ⟨c', ran, after⟩ := reads c here level
  refine ⟨c', ?_, after⟩
  change Reader.within step r c = _
  unfold Reader.within
  rw [ran]

/-- Whatever stands behind it, the text of the value is read as the answer, if no number goes on there. -/
def ReadsAs (r : Reader α) (depth : Nat) (v : Value) (a : α) : Prop :=
  ∀ rest, Unnumbered rest → r.Reads depth (v.chars.map .char ++ rest) rest a

variable {a : α} {v : Value}

/-- What is made of an answer is read from the same value. -/
theorem ReadsAs.map {β : Type} {r : Reader α} (f : α → β) (reads : r.ReadsAs depth v a) :
    (do return f (← r) : Reader β).ReadsAs depth v (f a) :=
  fun rest stops => (reads rest stops).map f

/-- The text of a value that is read is read as a whole, since nothing is left behind it. -/
theorem ReadsAs.readText {r : Reader α} (reads : r.ReadsAs depthLimit v a) : r.readText v.render = .ok a := by
  have glyphs : Glyph.ofText v.render = v.chars.map .char ++ [] := by simp [Glyph.ofText, Value.render]
  unfold Reader.readText
  rw [glyphs]
  exact (reads [] nofun).readAll

/-- A text is read as it is. -/
theorem text_readsAs (s : String) : text.ReadsAs depth (.text s) s :=
  fun _ _ => reads_stringAs rfl

/-- A flag is read as the word that it is written with. -/
theorem flag_readsAs (b : Bool) : flag.ReadsAs depth (.bool b) b := by
  intro rest _
  cases b with
  | true => exact reads_skipBlanks_bind (unblank_char (by decide)) (reads_bump.bind ((reads_word _).bind reads_pure))
  | false => exact reads_skipBlanks_bind (unblank_char (by decide)) (reads_bump.bind ((reads_word _).bind reads_pure))

/-- A whole number without a sign that is judged well is read as what it is judged to be, if 64 bits have room for it. -/
theorem numberAs_readsAs {expected : String} {judge : Number → Except Cause α} {n : Nat} (fits : n < word64Limit)
    (judges : judge (.integer n) = .ok a) : (numberAs expected judge).ReadsAs depth (.ofNat n) a := by
  intro rest stops
  have chars : (Value.ofNat n).chars = Nat.toDigits 10 n := Nat.toList_repr
  have whole : (do judged (judge (← number false)) : Reader α).Reads depth ((Nat.toDigits 10 n).map .char ++ rest) rest
      a := by
    have unsigned : Fits false n := ⟨fits, by simp⟩
    refine Reads.bind (reads_number unsigned stops) ?_
    rw [signed, if_neg Bool.false_ne_true, judges]
    exact reads_pure
  obtain ⟨c, more, digits, digit⟩ := exists_digit n
  have other {e : Char} (no : e.isDigit = false) : c ≠ e := ne_of_digit digit no
  rw [chars]
  rw [digits, List.map_cons, List.cons_append] at whole ⊢
  apply Reads.placed
  apply reads_skipBlanks_bind
    (unblank_char ⟨other (by decide), other (by decide), other (by decide), other (by decide)⟩)
  simpa only [List.head?_cons, other (show '-'.isDigit = false by decide), digit, if_true, if_false] using whole

/-- A whole number below the limit is judged well, and as itself. -/
theorem wholeBelow_natCast {limit n : Nat} {expected : String} (fits : n < limit) :
    wholeBelow limit expected (.integer n) = .ok n := by
  have within : 0 ≤ (n : Int) ∧ (n : Int) < limit := ⟨Int.natCast_nonneg n, Int.ofNat_lt.mpr fits⟩
  rw [wholeBelow, if_pos within, Int.toNat_natCast]

/-- So a number of 16 bits is read as it is. -/
theorem word16_readsAs {n : Nat} (fits : n < word16Limit) : word16.ReadsAs depth (.ofNat n) n :=
  numberAs_readsAs (Nat.lt_trans fits (by decide)) (wholeBelow_natCast fits)

section

variable {r : Reader α} {write : α → Value}

/-- Items that are read one by one are read in their order, behind those that are done already. -/
theorem reads_listFrom (reads : ∀ a, r.ReadsAs depth (write a) a) (plain : ∀ a, (write a).Plain) (items done : List α)
    (first : Bool) (enough : (itemsChars (items.map write)).length < fuel) :
    (listFrom r fuel first done).Reads depth
      ((if first then itemsChars (items.map write) else moreItems (items.map write)).map .char ++ .char ']' :: rest)
      (.char ']' :: rest) (done.reverse ++ items) := by
  induction items generalizing fuel first done with
  | nil =>
    obtain ⟨fuel, rfl⟩ : ∃ n, fuel = n + 1 := ⟨fuel - 1, by omega⟩
    have ended : (if first then itemsChars [] else moreItems []) = [] := by cases first <;> rfl
    rw [List.map_nil, ended, List.append_nil]
    exact Reads.bind reads_hasItem_end reads_pure
  | cons a items inductionHypothesis =>
    obtain ⟨fuel, rfl⟩ : ∃ n, fuel = n + 1 := ⟨fuel - 1, by omega⟩
    obtain ⟨-, enoughOthers⟩ := fewer_items (plain a) enough
    have onward := inductionHypothesis (a :: done) false enoughOthers
    rw [List.reverse_cons, List.append_assoc] at onward
    refine Reads.bind (reads_hasItem_item first (plain a) _) ?_
    exact Reads.bind (reads a _ (unnumbered_moreItems _)) onward

/-- A list is read as its items, one level deeper than what is around it. -/
theorem list_readsAs (room : 0 < depth) (reads : ∀ a, r.ReadsAs depth (write a) a) (plain : ∀ a, (write a).Plain)
    (items : List α) : (list r).ReadsAs (depth + 1) (.array (items.map write)) items := by
  intro rest _
  have inside : (do listFrom r (← steps) true [] : Reader (List α)).Reads depth
      ((itemsChars (items.map write)).map .char ++ .char ']' :: rest) (.char ']' :: rest) items := by
    apply reads_steps_bind
    apply reads_listFrom reads plain items [] true
    simp only [List.length_append, List.length_map]
    omega
  apply Reads.placed
  apply reads_skipBlanks_bind (unblank_char (by decide))
  simpa [chars] using inside.enclosed (g := .char '[') room reads_closeList

end

/-- A pair of texts is read as such from an array of two, and nothing may follow the second. -/
theorem textPair_readsAs (room : 0 < depth) (pair : String × String) :
    textPair.ReadsAs (depth + 1) (.array [.text pair.1, .text pair.2]) pair := by
  intro rest _
  have plain (s : String) : (Value.text s).Plain := trivial
  have text : (Value.array [.text pair.1, .text pair.2]).chars.map Glyph.char ++ rest =
      .char '[' :: ((itemsChars [.text pair.1, .text pair.2]).map .char ++ .char ']' :: rest) := by
    simp [chars]
  rw [text]
  apply Reads.placed
  apply reads_skipBlanks_bind (unblank_char (by decide))
  refine Reads.enclosed ?_ room reads_closeList
  refine Reads.bind (reads_hasItem_item true (plain pair.1) [.text pair.2]) ?_
  refine Reads.bind (text_readsAs pair.1 _ (unnumbered_moreItems [.text pair.2])) ?_
  refine Reads.bind (reads_hasItem_item false (plain pair.2) []) ?_
  exact (text_readsAs pair.2 _ (unnumbered_moreItems [])).map (pair.1, ·)

/-! Records. -/

/-- Members that fill slots one by one, each of them a slot that has not been filled before. -/
inductive Fills (slots : List (Slot δ)) (depth : Nat) : δ → List (String × Value) → δ → Prop
  | nothing (draft : δ) : Fills slots depth draft [] draft
  | member {draft next last : δ} {slot : Slot δ} {name : String} {v : Value} {members : List (String × Value)}
      (found : slots.find? (·.name == name) = some slot) (unfilled : slot.filled draft = false)
      (reads : (slot.read draft).ReadsAs depth v next) (others : Fills slots depth next members last) :
      Fills slots depth draft ((name, v) :: members) last

variable {slots : List (Slot δ)} {draft last filled : δ} {members : List (String × Value)}

/-- Members are read one by one, each by the slot that it fills, until all that was written is filled in. The induction
is on how they fill the draft. -/
theorem reads_slotMembers (fills : Fills slots depth draft members last) (first : Bool) (enough : members.length < fuel) :
    (slotMembers slots fuel first draft).Reads depth
      ((if first then membersChars members else moreMembers members).map .char ++ .char '\x7d' :: rest)
      (.char '\x7d' :: rest) last := by
  induction fills generalizing fuel first with
  | nothing draft =>
    obtain ⟨fuel, rfl⟩ : ∃ n, fuel = n + 1 := ⟨fuel - 1, by omega⟩
    have ended : (if first then membersChars [] else moreMembers []) = [] := by cases first <;> rfl
    rw [ended]
    exact Reads.bind reads_hasMember_end reads_pure
  | @member draft next last slot name v members found unfilled reads others inductionHypothesis =>
    rw [List.length_cons] at enough
    obtain ⟨fuel, rfl⟩ : ∃ n, fuel = n + 1 := ⟨fuel - 1, by omega⟩
    have onward := @inductionHypothesis fuel false (by omega)
    refine Reads.bind (reads_hasMember_member first name v members) ?_
    refine Reads.bind (reads_string name) ?_
    rw [found]
    dsimp only
    rw [unfilled, if_neg Bool.false_ne_true]
    refine Reads.bind reads_colon ?_
    exact Reads.bind ((reads _ (unnumbered_moreMembers members)).within (.member name)) onward

/-- Each member is written with one character at least, so there are steps enough to read all of them. -/
theorem length_le_membersChars (members : List (String × Value)) : members.length ≤ (membersChars members).length := by
  induction members with
  | nil => exact Nat.le_refl 0
  | cons member members inductionHypothesis =>
    obtain ⟨name, v⟩ := member
    have more : (membersChars members).length ≤ (moreMembers members).length := by
      cases members with
      | nil => exact Nat.le_refl 0
      | cons w others => simp [moreMembers]
    rw [membersChars_cons]
    simp only [List.length_append, List.length_cons]
    omega

/-- A record is read as what its members fill in, completed: whatever slot is left open has what it may be left open
with. -/
theorem record_readsAs (name : String) (room : 0 < depth) (fills : Fills slots depth draft members filled)
    (complete : completed slots filled = .ok last) :
    (record name slots draft).ReadsAs (depth + 1) (.object members) last := by
  intro rest _
  have inside : (do judged (completed slots (← slotMembers slots (← steps) true draft)) : Reader δ).Reads depth
      ((membersChars members).map .char ++ .char '\x7d' :: rest) (.char '\x7d' :: rest) last := by
    apply reads_steps_bind
    refine Reads.bind (reads_slotMembers fills true ?_) ?_
    · have := length_le_membersChars members
      simp only [List.length_append, List.length_map]
      omega
    · rw [complete]
      exact reads_pure
  apply Reads.placed
  apply reads_skipBlanks_bind (unblank_char (by decide))
  simpa [chars] using inside.enclosed (g := .char '\x7b') room reads_closeObject

end Turnstile.Json.Reader
