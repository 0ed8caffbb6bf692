import Turnstile.Json.Reader

/-!
What readers read.

A reader reads an answer off the front of what is ahead when, from every place with that ahead of it, it gives the
answer and stops with the rest ahead, as deep as it was. Lines and columns do not occur in this: a text that is read
without a fault reads the same wherever it stands. There is one rule for each way of making a reader and one for each
of the small readers, so a larger reader is followed along its definition.
-/

namespace Turnstile.Json

open Text (Glyph)

namespace Reader

variable {α β : Type} {depth : Nat} {ahead between rest : List Glyph} {g : Glyph} {a : α} {b : β}

/-- At that depth the reader takes what is ahead down to the rest and gives the answer. -/
def Reads (r : Reader α) (depth : Nat) (ahead rest : List Glyph) (a : α) : Prop :=
  ∀ c : Cursor, c.rest = ahead → c.depth = depth →
    ∃ c', r.run c = (.ok a, c') ∧ c'.rest = rest ∧ c'.depth = depth

/-- A reader that answers hands its place on: what follows it begins where it has stopped. -/
theorem run_bind {r : Reader α} {c c' : Cursor} (ran : r.run c = (.ok a, c')) (f : α → Reader β) :
    (r >>= f).run c = (f a).run c' := by
  change ExceptT.bindCont f (r.run c).1 (r.run c).2 = _
  rw [ran]
  rfl

/-- A reader that only answers leaves its place as it is. -/
theorem reads_pure : (pure a : Reader α).Reads depth ahead ahead a :=
  fun c here level => ⟨c, rfl, here, level⟩

/-- One reader after the other: the second begins with what the first has left, at the same depth. -/
theorem Reads.bind {r : Reader α} {f : α → Reader β} (first : r.Reads depth ahead between a)
    (second : (f a).Reads depth between rest b) : (r >>= f).Reads depth ahead rest b := by
  intro c here level
  obtain ⟨c₁, ran, here₁, level₁⟩ := first c here level
  rw [run_bind ran]
  exact second c₁ here₁ level₁

/-- A reader gives one answer, for it runs in one way from any given place. -/
theorem Reads.unique {r : Reader α} {rest' : List Glyph} {a' : α} (reads : r.Reads depth ahead rest a)
    (reads' : r.Reads depth ahead rest' a') : a = a' := by
  let c : Cursor := ⟨ahead, ⟨1, 0⟩, depth, []⟩
  obtain ⟨left, ran, -⟩ := reads c rfl rfl
  obtain ⟨left', ran', -⟩ := reads' c rfl rfl
  rw [ran] at ran'
  exact Except.ok.inj (congrArg Prod.fst ran')

/-- What is made of an answer is read from the same glyphs as the answer. -/
theorem Reads.map {r : Reader α} (f : α → β) (reads : r.Reads depth ahead rest a) :
    (do return f (← r) : Reader β).Reads depth ahead rest (f a) :=
  reads.bind reads_pure

/-- A look at the place itself. All that may be known of the place is what is ahead of it and how deep it is. -/
theorem reads_get_bind {f : Cursor → Reader β}
    (next : ∀ c : Cursor, c.rest = ahead → c.depth = depth → (f c).Reads depth ahead rest b) :
    (get >>= f : Reader β).Reads depth ahead rest b :=
  fun c here level => next c here level c here level

/-- Faults that are placed later do not matter where there are none. -/
theorem Reads.placed {r : Reader α} (reads : r.Reads depth ahead rest a) : r.placed.Reads depth ahead rest a := by
  intro c here level
  obtain ⟨c', ran, after⟩ := reads c here level
  apply Exists.intro c'
  constructor
  · simp only [Reader.placed, ExceptT.run] at ran ⊢
    rw [ran]
  · exact after

/-- Nor does it matter that a fault would be kept as a value. -/
theorem Reads.attempt {r : Reader α} (reads : r.Reads depth ahead rest a) :
    r.attempt.Reads depth ahead rest (.ok a) := by
  intro c here level
  obtain ⟨c', ran, after⟩ := reads c here level
  apply Exists.intro c'
  constructor
  · change (Except.ok (r.run c).1, (r.run c).2) = _
    rw [ran]
  · exact after

/-- A reader one level deeper, as long as there is a level left; the level is given back behind it. -/
theorem Reads.deeper {r : Reader α} (reads : r.Reads depth ahead rest a) (room : 0 < depth) :
    r.deeper.Reads (depth + 1) ahead rest a := by
  intro c here level
  obtain ⟨c', ran, after, -⟩ := reads { c with depth := c.depth - 1 } here (by rw [level]; rfl)
  apply Exists.intro { c' with depth := c.depth }
  constructor
  · have deep : ¬ c.depth ≤ 1 := by omega
    unfold Reader.deeper
    rw [run_bind (show (get : Reader Cursor).run c = (.ok c, c) from rfl)]
    simp only [deep, if_false]
    rw [run_bind (show (modify _ : Reader Unit).run c = (.ok (), { c with depth := c.depth - 1 }) from rfl),
      run_bind ran]
    rfl
  · exact ⟨after, level⟩

/-- One glyph is passed over, whatever it is. -/
theorem reads_bump : bump.Reads depth (g :: rest) rest () := by
  intro c here level
  apply Exists.intro c.bump
  constructor
  · rfl
  · simp only [Cursor.bump, here, level, and_self]

/-- There is no blank to skip. -/
def Unblank (ahead : List Glyph) : Prop := ∀ g, ahead.head? = some g → isJsonBlank g = false

/-- Where the next glyph is not blank nothing is skipped, and that glyph is what is shown. -/
theorem reads_skipBlanks (unblank : Unblank ahead) : skipBlanks.Reads depth ahead ahead ahead.head? := by
  intro c here level
  have stays : skipBlanksFrom c.position c.rest = (c.rest, c.position) := by
    rw [here]
    cases ahead with
    | nil => rfl
    | cons g rest => simp only [skipBlanksFrom, unblank g rfl, Bool.false_eq_true, if_false]
  apply Exists.intro c
  constructor
  · unfold skipBlanks
    rw [run_bind (show (modify _ : Reader Unit).run c = (.ok (), c) by
      change (Except.ok (), { c with
        rest := (skipBlanksFrom c.position c.rest).1, position := (skipBlanksFrom c.position c.rest).2 }) = _
      rw [stays])]
    rw [← here]
    rfl
  · exact ⟨here, level⟩

/-- A reader that begins with a look at the next glyph goes on by that glyph, if it is not blank. -/
theorem reads_skipBlanks_bind {f : Option Glyph → Reader β} (unblank : Unblank ahead)
    (next : (f ahead.head?).Reads depth ahead rest b) : (skipBlanks >>= f).Reads depth ahead rest b :=
  (reads_skipBlanks unblank).bind next

/-- A character that is accepted gives its answer and is passed over. -/
theorem reads_nextOr {accept : Char → Option α} {atEnd refused : Cause} {c : Char} (accepts : accept c = some a) :
    (nextOr accept atEnd refused).Reads depth (.char c :: rest) rest a := by
  unfold nextOr
  apply reads_get_bind
  intro cursor here level
  simp only [here, accepts]
  exact reads_bump.bind reads_pure

/-- A word is read letter by letter, and nothing else is expected of what follows it. -/
theorem reads_word (letters : List Char) : (word letters).Reads depth (letters.map .char ++ rest) rest () := by
  induction letters with
  | nil => exact reads_pure
  | cons letter more inductionHypothesis =>
    exact (reads_nextOr (by rw [if_pos rfl])).bind inductionHypothesis

/-- The inside of brackets and their end: the opening one is passed over on the way in, so that the inside is one level
deeper than the end. -/
theorem Reads.enclosed {inside : Reader α} {close : Reader Unit}
    (reads : inside.Reads depth ahead between a) (room : 0 < depth)
    (closes : close.Reads (depth + 1) between rest ()) :
    (enclosed inside close).Reads (depth + 1) (g :: ahead) rest a := by
  unfold Reader.enclosed
  apply Reads.bind (Reads.attempt ((reads_bump.bind reads).deeper room))
  exact closes.bind reads_pure

/-- A place that is set further on is there, at the same depth. -/
theorem reads_advanceTo {count : Nat} : (advanceTo rest count).Reads depth ahead rest () :=
  fun c _ level => ⟨{ c with rest := rest, position := ⟨c.position.line, c.position.column + count⟩ }, rfl, rfl, level⟩

/-- A character that is not one of the four blanks is not blank to a reader. -/
theorem unblank_char {c : Char} (visible : c ≠ ' ' ∧ c ≠ '\n' ∧ c ≠ '\t' ∧ c ≠ '\r') :
    Unblank (.char c :: rest) := by
  intro g is
  obtain rfl := Option.some.inj is
  simp [isJsonBlank, visible]

/-- A colon is read where it is the next glyph. -/
theorem reads_colon : colon.Reads depth (.char ':' :: rest) rest () :=
  reads_skipBlanks_bind (unblank_char (by decide)) reads_bump

/-- So is the end of an array. -/
theorem reads_closeList : closeList.Reads depth (.char ']' :: rest) rest () :=
  reads_skipBlanks_bind (unblank_char (by decide)) reads_bump

/-- And the end of an object. -/
theorem reads_closeObject : closeObject.Reads depth (.char '\x7d' :: rest) rest () :=
  reads_skipBlanks_bind (unblank_char (by decide)) reads_bump

/-- At the end of an array there is no further item, whether it is the first or not, and the bracket is left for what
closes the array. -/
theorem reads_hasItem_end {first : Bool} :
    (hasItem first).Reads depth (.char ']' :: rest) (.char ']' :: rest) false :=
  reads_skipBlanks_bind (unblank_char (by decide)) reads_pure

/-- At the first item there is one, if what is ahead is not the end; nothing is passed over for it. -/
theorem reads_hasItem_first (unblank : Unblank (g :: ahead)) (item : g ≠ .char ']') :
    (hasItem true).Reads depth (g :: ahead) (g :: ahead) true := by
  apply reads_skipBlanks_bind unblank
  simp only [List.head?_cons, item, if_false, if_true]
  exact reads_pure

/-- Behind a comma, at the next item: the comma is passed over, and the item is ahead. -/
theorem reads_hasItem_next (unblank : Unblank (g :: ahead)) (item : g ≠ .char ']') :
    (hasItem false).Reads depth (.char ',' :: g :: ahead) (g :: ahead) true := by
  apply reads_skipBlanks_bind (unblank_char (by decide))
  apply reads_bump.bind
  apply reads_skipBlanks_bind unblank
  simp only [List.head?_cons, item, if_false]
  exact reads_pure

/-- At the end of an object there is no further member, and the brace is left for what closes the object. -/
theorem reads_hasMember_end {first : Bool} :
    (hasMember first).Reads depth (.char '\x7d' :: rest) (.char '\x7d' :: rest) false :=
  reads_skipBlanks_bind (unblank_char (by decide)) reads_pure

/-- Into the first name: its opening quote is passed over. -/
theorem reads_hasMember_first : (hasMember true).Reads depth (.char '"' :: rest) rest true :=
  reads_skipBlanks_bind (unblank_char (by decide)) (reads_bump.bind reads_pure)

/-- Behind a comma, into the next name: the comma and the opening quote are passed over. -/
theorem reads_hasMember_next : (hasMember false).Reads depth (.char ',' :: .char '"' :: rest) rest true := by
  apply reads_skipBlanks_bind (unblank_char (by decide))
  apply reads_bump.bind
  exact reads_skipBlanks_bind (unblank_char (by decide)) (reads_bump.bind reads_pure)

/-- A whole text that is read is read to its end: nothing is left ahead, so the check for what may trail finds nothing. -/
theorem Reads.readAll {r : Reader α} {glyphs : List Glyph} (reads : r.Reads depthLimit glyphs [] a) :
    r.readAll glyphs = .ok a := by
  have whole : (do let a ← r; finish; return a : Reader α).Reads depthLimit glyphs [] a := by
    have ended : finish.Reads depthLimit [] [] () := reads_skipBlanks_bind (fun g is => by cases is) reads_pure
    exact reads.bind (ended.bind reads_pure)
  obtain ⟨c', ran, -⟩ := whole (Cursor.start glyphs) rfl rfl
  exact congrArg Prod.fst ran

end Reader

end Turnstile.Json
