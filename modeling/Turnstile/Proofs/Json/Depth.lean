import Turnstile.Proofs.Json.Sorted

/-!
Values that are nested too deeply to be read.

Whatever is written for a value is read back, as long as the reader has a level left for every array and object inside
it. `Refuses` is the other side of `Reads`: from every place with that ahead of it, the reader fails for the same cause,
somewhere. A value that needs a level more than there is makes the reader fail at the bracket where the levels run out:
all that stands before this bracket has been read, and all that stands behind it does not matter. So a reader of values
takes exactly the values that are not nested too deeply.

What is refused is told by its cause. Where in the text the fault is placed is left open.
-/

namespace Turnstile.Json

open Text (Glyph)

namespace Reader

variable {α β : Type} {depth : Nat} {ahead between rest : List Glyph} {g : Glyph} {a : α} {cause : Cause}

/-- At that depth the reader fails on what is ahead, for that cause. -/
def Refuses (r : Reader α) (depth : Nat) (ahead : List Glyph) (cause : Cause) : Prop :=
  ∀ c : Cursor, c.rest = ahead → c.depth = depth → ∃ place c', r.run c = (.error ⟨cause, some place⟩, c')

/-- A reader that fails is the last one: its fault is that of the whole, and the place is where it has stopped. -/
theorem run_bind_error {r : Reader α} {c c' : Cursor} {fault : Fault} (ran : r.run c = (.error fault, c'))
    (f : α → Reader β) : (r >>= f).run c = (.error fault, c') := by
  change ExceptT.bindCont f (r.run c).1 (r.run c).2 = _
  rw [ran]
  rfl

/-- A reader that only fails refuses whatever is ahead. -/
theorem refuses_failAhead : (failAhead cause : Reader α).Refuses depth ahead cause :=
  fun c _ _ => ⟨c.ahead, c, rfl⟩

/-- What is refused first is refused, whatever would come behind it. -/
theorem Refuses.bind {r : Reader α} (refuses : r.Refuses depth ahead cause) (f : α → Reader β) :
    (r >>= f).Refuses depth ahead cause := by
  intro c here level
  obtain ⟨place, c', ran⟩ := refuses c here level
  exact ⟨place, c', run_bind_error ran f⟩

/-- Nothing is made of an answer that is refused. -/
theorem Refuses.map {r : Reader α} (f : α → β) (refuses : r.Refuses depth ahead cause) :
    (do return f (← r) : Reader β).Refuses depth ahead cause :=
  refuses.bind _

/-- So is what is refused behind something that is read. -/
theorem Reads.refuses {r : Reader α} {f : α → Reader β} (first : r.Reads depth ahead between a)
    (second : (f a).Refuses depth between cause) : (r >>= f).Refuses depth ahead cause := by
  intro c here level
  obtain ⟨c₁, ran, here₁, level₁⟩ := first c here level
  rw [run_bind ran]
  exact second c₁ here₁ level₁

/-- From what is ahead the reader goes on as another one does further on. -/
def LeadsTo (r : Reader α) (depth : Nat) (ahead : List Glyph) (onward : Reader α) (between : List Glyph) : Prop :=
  ∀ c : Cursor, c.rest = ahead → c.depth = depth →
    ∃ c', c'.rest = between ∧ c'.depth = depth ∧ r.run c = onward.run c'

/-- What is read first leads to what comes behind it, with the glyphs that it has left. -/
theorem Reads.leads {r : Reader α} {f : α → Reader β} {onward : Reader β} {further : List Glyph}
    (first : r.Reads depth ahead between a) (second : (f a).LeadsTo depth between onward further) :
    (r >>= f).LeadsTo depth ahead onward further := by
  intro c here level
  obtain ⟨c₁, ran, here₁, level₁⟩ := first c here level
  rw [run_bind ran]
  exact second c₁ here₁ level₁

/-- Every reader leads to itself without passing anything over. -/
theorem leadsTo_self (r : Reader α) : r.LeadsTo depth ahead r ahead :=
  fun c here level => ⟨c, here, level, rfl⟩

/-- If a reader leads to another, it reads what that one reads. -/
theorem LeadsTo.reads {r onward : Reader α} (leads : r.LeadsTo depth ahead onward between)
    (reads : onward.Reads depth between rest a) : r.Reads depth ahead rest a := by
  intro c here level
  obtain ⟨c₁, here₁, level₁, same⟩ := leads c here level
  rw [same]
  exact reads c₁ here₁ level₁

/-- And it refuses what that one refuses. So the way to a part is told once for both. -/
theorem LeadsTo.refuses {r onward : Reader α} (leads : r.LeadsTo depth ahead onward between)
    (refuses : onward.Refuses depth between cause) : r.Refuses depth ahead cause := by
  intro c here level
  obtain ⟨c₁, here₁, level₁, same⟩ := leads c here level
  rw [same]
  exact refuses c₁ here₁ level₁

/-- A look at the place itself refuses nothing; what comes behind it may know what is ahead and how deep it is. -/
theorem refuses_get_bind {f : Cursor → Reader β}
    (next : ∀ c : Cursor, c.rest = ahead → c.depth = depth → (f c).Refuses depth ahead cause) :
    (get >>= f : Reader β).Refuses depth ahead cause :=
  fun c here level => next c here level c here level

/-- A fault with a place keeps it. -/
theorem Refuses.placed {r : Reader α} (refuses : r.Refuses depth ahead cause) : r.placed.Refuses depth ahead cause := by
  intro c here level
  obtain ⟨place, c', ran⟩ := refuses c here level
  refine ⟨place, c', ?_⟩
  simp only [Reader.placed, ExceptT.run] at ran ⊢
  rw [ran]

/-- On the last level nothing deeper is read, without a look at what it is. -/
theorem refuses_deeper_last (r : Reader α) : r.deeper.Refuses 1 ahead .tooDeep := by
  unfold Reader.deeper
  refine refuses_get_bind fun c here level => ?_
  rw [if_pos (Nat.le_of_eq level)]
  exact refuses_failAhead

/-- What is refused on a deeper level is refused. -/
theorem Refuses.deeper {r : Reader α} (refuses : r.Refuses depth ahead cause) (room : 0 < depth) :
    r.deeper.Refuses (depth + 1) ahead cause := by
  intro c here level
  obtain ⟨place, c', ran⟩ := refuses { c with depth := c.depth - 1 } here (by rw [level]; rfl)
  refine ⟨place, c', ?_⟩
  have deep : ¬ c.depth ≤ 1 := by omega
  unfold Reader.deeper
  rw [run_bind (show (get : Reader Cursor).run c = (.ok c, c) from rfl)]
  simp only [deep, if_false]
  rw [run_bind (show (modify _ : Reader Unit).run c = (.ok (), { c with depth := c.depth - 1 }) from rfl)]
  exact run_bind_error ran _

/-- The fault inside of brackets is the fault of the whole, whatever comes of the closing bracket, which is looked for
even after a fault. -/
theorem refuses_enclosed {inside : Reader α} {close : Reader Unit}
    (refuses : (do bump; inside : Reader α).deeper.Refuses depth ahead cause) :
    (enclosed inside close).Refuses depth ahead cause := by
  intro c here level
  obtain ⟨place, c', ran⟩ := refuses c here level
  have attempted : (attempt (do bump; inside : Reader α).deeper).run c = (.ok (.error ⟨cause, some place⟩), c') := by
    change (Except.ok ((do bump; inside : Reader α).deeper.run c).1, ((do bump; inside : Reader α).deeper.run c).2) = _
    rw [ran]
  refine ⟨place, (close.run c').2, ?_⟩
  unfold enclosed
  rw [run_bind attempted]
  rfl

/-- Brackets are nested too deeply if there is no level left for them, or if what is inside is nested too deeply. -/
theorem refuses_brackets {inside : Reader α} (close : Reader Unit)
    (refuses : 0 < depth → inside.Refuses depth ahead .tooDeep) :
    (enclosed inside close).Refuses (depth + 1) (g :: ahead) .tooDeep := by
  rcases Nat.eq_zero_or_pos depth with rfl | room
  · exact refuses_enclosed (refuses_deeper_last _)
  · exact refuses_enclosed ((reads_bump.refuses (refuses room)).deeper room)

/-- A reader that begins with a look at the next glyph refuses what it refuses by that glyph. -/
theorem refuses_skipBlanks_bind {f : Option Glyph → Reader β} (unblank : Unblank ahead)
    (next : (f ahead.head?).Refuses depth ahead cause) : (skipBlanks >>= f).Refuses depth ahead cause :=
  (reads_skipBlanks unblank).refuses next

/-- A whole text that begins with what is refused is refused, and the place of the fault is told. -/
theorem Refuses.readAll {r : Reader α} {glyphs : List Glyph} (refuses : r.Refuses depthLimit glyphs cause) :
    ∃ place, r.readAll glyphs = .error ⟨cause, some place⟩ := by
  obtain ⟨place, c', ran⟩ := refuses.bind (fun a => do finish; return a) (Cursor.start glyphs) rfl rfl
  exact ⟨place, congrArg Prod.fst ran⟩

open Value

mutual

/-- A value that is nested deeper than there are levels is refused. The way is the same as for reading it; only arrays
and objects can be nested, and there `refuses_brackets` decides. -/
theorem refuses_value (v : Value) (plain : v.Plain) (fuel depth : Nat) (rest : List Glyph)
    (enough : v.chars.length ≤ fuel) (level : 0 < depth) (deep : depth ≤ v.levels) :
    (valueFrom fuel).Refuses depth (v.chars.map .char ++ rest) .tooDeep := by
  obtain ⟨c, more, front, visible, -⟩ := front_chars v plain
  obtain ⟨fuel, rfl⟩ : ∃ n, fuel = n + 1 := ⟨fuel - 1, by have := chars_pos plain; omega⟩
  have unblank : Unblank (v.chars.map Glyph.char ++ rest) := by
    rw [front]
    exact unblank_char visible
  rw [valueFrom]
  apply refuses_skipBlanks_bind unblank
  cases v with
  | null | bool _ | integer _ | real _ | text _ => exact absurd (Nat.lt_of_lt_of_le level deep) (Nat.lt_irrefl 0)
  | array items =>
    obtain ⟨depth, rfl⟩ : ∃ d, depth = d + 1 := ⟨depth - 1, by omega⟩
    have inside (room : 0 < depth) := refuses_items items plain fuel depth rest true []
      (by simp [chars] at enough; omega) room (by simpa [levels] using deep)
    have brackets := (refuses_brackets (g := .char '[') closeList inside).map Value.array
    simpa [chars] using brackets
  | object members =>
    obtain ⟨depth, rfl⟩ : ∃ d, depth = d + 1 := ⟨depth - 1, by omega⟩
    have inside (room : 0 < depth) := refuses_members members plain fuel depth rest true []
      (by simp [chars] at enough; omega) room (by simpa [levels] using deep)
    have brackets := (refuses_brackets (g := .char '\x7b') closeObject inside).map Value.object
    simpa [chars] using brackets

/-- The items before the first that is nested too deeply are read, and that one is refused. -/
theorem refuses_items (items : List Value) (plain : PlainItems items) (fuel depth : Nat) (rest : List Glyph)
    (first : Bool) (done : List Value) (enough : (itemsChars items).length < fuel) (level : 0 < depth)
    (deep : depth ≤ itemsLevels items) :
    (itemsFrom fuel first done).Refuses depth
      ((if first then itemsChars items else moreItems items).map .char ++ .char ']' :: rest) .tooDeep := by
  obtain ⟨fuel, rfl⟩ : ∃ n, fuel = n + 1 := ⟨fuel - 1, by omega⟩
  rw [itemsFrom]
  cases items with
  | nil => exact absurd (Nat.lt_of_lt_of_le level deep) (Nat.lt_irrefl 0)
  | cons v items =>
    obtain ⟨here, others⟩ := plain
    obtain ⟨enoughHere, enoughOthers⟩ := fewer_items here enough
    refine Reads.refuses (reads_hasItem_item first here items) ?_
    rcases Nat.lt_or_ge v.levels depth with shallow | deepHere
    · have further : depth ≤ itemsLevels items := (le_max_iff.mp deep).resolve_left (Nat.not_le.mpr shallow)
      refine Reads.refuses (reads_value v here fuel depth _ enoughHere shallow (unnumbered_moreItems items)) ?_
      exact refuses_items items others fuel depth rest false _ enoughOthers level further
    · exact (refuses_value v here fuel depth _ enoughHere level deepHere).bind _

/-- The members before the first that is nested too deeply are read, and that one is refused behind its name. -/
theorem refuses_members (members : List (String × Value)) (plain : PlainMembers members) (fuel depth : Nat)
    (rest : List Glyph) (first : Bool) (done : List (String × Value)) (enough : (membersChars members).length < fuel)
    (level : 0 < depth) (deep : depth ≤ membersLevels members) :
    (membersFrom fuel first done).Refuses depth
      ((if first then membersChars members else moreMembers members).map .char ++ .char '\x7d' :: rest) .tooDeep := by
  obtain ⟨fuel, rfl⟩ : ∃ n, fuel = n + 1 := ⟨fuel - 1, by omega⟩
  rw [membersFrom]
  cases members with
  | nil => exact absurd (Nat.lt_of_lt_of_le level deep) (Nat.lt_irrefl 0)
  | cons member members =>
    obtain ⟨name, v⟩ := member
    obtain ⟨here, others⟩ := plain
    obtain ⟨enoughHere, enoughOthers⟩ := fewer_members enough
    refine Reads.refuses (reads_hasMember_member first name v members) ?_
    refine Reads.refuses (reads_string name) ?_
    refine Reads.refuses reads_colon ?_
    rcases Nat.lt_or_ge v.levels depth with shallow | deepHere
    · have further : depth ≤ membersLevels members := (le_max_iff.mp deep).resolve_left (Nat.not_le.mpr shallow)
      refine Reads.refuses (reads_value v here fuel depth _ enoughHere shallow (unnumbered_moreMembers members)) ?_
      exact refuses_members members others fuel depth rest false _ enoughOthers level further
    · exact (refuses_value v here fuel depth _ enoughHere level deepHere).bind _

end

/-- The reader of any value allows itself steps enough to come to where the levels run out. -/
theorem refuses_whole_value {v : Value} (plain : v.Plain) (level : 0 < depth) (deep : depth ≤ v.levels) :
    value.Refuses depth (v.chars.map .char ++ rest) .tooDeep := by
  unfold value steps
  apply refuses_get_bind
  intro cursor here _
  apply refuses_value v plain _ _ _ _ level deep
  rw [here]
  simp only [List.length_append, List.length_map]
  omega

end Reader

end Turnstile.Json
