import Turnstile.Proofs.Json.Reading

/-!
Strings are read as they are written.

A character of a string is written plainly, by a letter behind a backslash, or by four hexadecimal digits. Each of the
three is read back as the character, so the text of a string is read as the string, by induction on its characters.
-/

namespace Turnstile.Json

open Text (Glyph)

/-- How a character may be written inside a string. -/
inductive Spelling (c : Char) : List Char → Prop
  | plain (quote : c ≠ '"') (backslash : c ≠ '\\') (control : 32 ≤ c.toNat) : Spelling c [c]
  | letter (letter : Char) (numeric : letter ≠ 'u') (names : letterEscape? letter = some c) :
      Spelling c ['\\', letter]
  | digits (high low : Char) (basic : c.toNat < 0xd800)
      (names : hexValue? high = some (c.toNat / 16) ∧ hexValue? low = some (c.toNat % 16)) :
      Spelling c ['\\', 'u', '0', '0', high, low]

/-- The escape of a control character: there are 32 of them, and the two digits at the end name each. -/
theorem spelling_control {c : Char} (control : c.toNat < 32) : Spelling c (controlEscape c) := by
  have controls : ∀ n < 32, ∃ high low, controlEscape (Char.ofNat n) = ['\\', 'u', '0', '0', high, low] ∧
      hexValue? high = some (n / 16) ∧ hexValue? low = some (n % 16) := by
    intro n small
    apply Exists.intro (Nat.digitChar (n / 16))
    apply Exists.intro (Nat.digitChar (n % 16))
    revert n
    decide
  obtain ⟨high, low, is, names⟩ := controls c.toNat control
  rw [Char.ofNat_toNat] at is
  rw [is]
  exact .digits high low (by omega) names

/-- Every character is written in one of these ways: by a short escape, by its number if it is any other control, and
otherwise as itself. -/
theorem spelling_escapeChar (c : Char) : Spelling c (escapeChar c) := by
  have ofNat {n : Nat} (is : c.toNat = n) : Char.ofNat n = c := is ▸ Char.ofNat_toNat c
  unfold escapeChar
  split
  · rename_i is
    exact .letter '"' (by decide) (by rw [is]; decide)
  split
  · rename_i is
    exact .letter '\\' (by decide) (by rw [is]; decide)
  split
  · rename_i is
    exact .letter 'n' (by decide) (by rw [is]; decide)
  split
  · rename_i is
    exact .letter 'r' (by decide) (by rw [is]; decide)
  split
  · rename_i is
    exact .letter 't' (by decide) (by rw [is]; decide)
  split
  · rename_i is
    exact .letter 'b' (by decide) (by rw [← ofNat is]; decide)
  split
  · rename_i is
    exact .letter 'f' (by decide) (by rw [← ofNat is]; decide)
  split
  · rename_i control
    exact spelling_control control
  · exact .plain ‹_› ‹_› (by omega)

namespace Reader

variable {depth fuel : Nat} {ahead rest : List Glyph} {done : List Char} {c : Char} {s : String}

/-- Setting the place reads nothing; what is ahead afterwards is what was set. -/
theorem reads_set {p : Position} {trail : List Segment} :
    (set (⟨rest, p, depth, trail⟩ : Cursor) : Reader Unit).Reads depth ahead rest () :=
  fun _ _ _ => ⟨⟨rest, p, depth, trail⟩, rfl, rfl, rfl⟩

/-- Four digits, the first two of which are zero, are read as the number that the other two name. -/
theorem reads_hexFour {high low : Char} {n : Nat}
    (names : hexValue? high = some (n / 16) ∧ hexValue? low = some (n % 16)) :
    hexFour.Reads depth (.char '0' :: .char '0' :: .char high :: .char low :: rest) rest n := by
  unfold hexFour
  apply reads_get_bind
  intro cursor here level
  have zero : hexValue? '0' = some 0 := by decide
  have value : ((0 * 16 + 0) * 16 + n / 16) * 16 + n % 16 = n := by omega
  simp only [here, zero, names]
  apply reads_advanceTo.bind
  rw [value]
  exact reads_pure

/-- What follows a backslash: one letter for the short escapes, and a number otherwise, which names a control character
and so is no half of a pair. -/
theorem reads_escape {spelled : List Char} (spelling : Spelling c ('\\' :: spelled)) (escaped : spelled ≠ []) :
    escape.Reads depth (spelled.map .char ++ rest) rest c := by
  unfold escape
  cases spelling with
  | plain => exact absurd rfl escaped
  | letter letter numeric names =>
    refine Reads.bind (reads_nextOr (a := some c) ?_) reads_pure
    rw [if_neg numeric, names]
    rfl
  | digits high low basic names =>
    refine Reads.bind (reads_nextOr (a := none) rfl) ?_
    refine Reads.bind (reads_hexFour names) ?_
    rw [if_neg (by omega), if_pos (by omega), Char.ofNat_toNat]
    exact reads_pure

/-- A plain character inside a string is put to those before it, by the run that takes all plain ones at once. -/
theorem reads_stringFrom_plain (quote : c ≠ '"') (backslash : c ≠ '\\') (control : 32 ≤ c.toNat)
    (onward : (stringFrom (fuel + 1) (c :: done) none).Reads depth ahead rest s) :
    (stringFrom (fuel + 1) done none).Reads depth (.char c :: ahead) rest s := by
  intro cursor here level
  have run (p : Position) : plainRun done none p (.char c :: ahead) = plainRun (c :: done) none (p.after (.char c)) ahead := by
    rw [plainRun, if_neg (by simp only [quote, backslash, false_or]; omega)]
  obtain ⟨c', ran, after⟩ := onward { cursor with rest := ahead, position := cursor.position.after (.char c) } rfl level
  apply Exists.intro c'
  constructor
  · rw [← ran]
    simp only [stringFrom]
    rw [run_bind (show (get : Reader Cursor).run cursor = (.ok cursor, cursor) from rfl), here, run]
    rfl
  · exact after

/-- The plain part of a string stops here, at a quote or a backslash. -/
theorem plainRun_stop {stray : Option Position} {p : Position} (stops : c = '"' ∨ c = '\\') :
    plainRun done stray p (.char c :: ahead) = (done, stray, p, .char c :: ahead) := by
  rw [plainRun, if_pos (by rcases stops with is | is <;> simp only [is, true_or, or_true])]

/-- The closing quote ends the string with the characters that were put together. -/
theorem reads_stringFrom_end :
    (stringFrom (fuel + 1) done none).Reads depth (.char '"' :: rest) rest (String.ofList done.reverse) := by
  unfold stringFrom
  apply reads_get_bind
  intro cursor here level
  subst level
  simp only [here, plainRun_stop (.inl rfl)]
  apply reads_set.bind
  apply reads_bump.bind
  exact reads_pure

/-- An escape inside a string is one character, and the string goes on behind it, with one step fewer. -/
theorem reads_stringFrom_escape {spelled : List Char} (spelling : Spelling c ('\\' :: spelled)) (escaped : spelled ≠ [])
    (onward : (stringFrom fuel (c :: done) none).Reads depth ahead rest s) :
    (stringFrom (fuel + 1) done none).Reads depth (.char '\\' :: (spelled.map .char ++ ahead)) rest s := by
  unfold stringFrom
  apply reads_get_bind
  intro cursor here level
  subst level
  simp only [here, plainRun_stop (.inr rfl)]
  apply reads_set.bind
  apply reads_bump.bind
  exact (reads_escape spelling escaped).bind onward

/-- The content of a string, from any of its characters on. The induction is on the content, and each character is read
by the way in which it is spelled. -/
theorem reads_stringFrom (content : List Char) (enough : content.length < fuel) :
    (stringFrom fuel done none).Reads depth ((content.flatMap escapeChar).map .char ++ .char '"' :: rest) rest
      (String.ofList (done.reverse ++ content)) := by
  induction content generalizing fuel done with
  | nil =>
    obtain ⟨more, rfl⟩ : ∃ more, fuel = more + 1 := ⟨fuel - 1, by simp at enough; omega⟩
    rw [List.append_nil]
    exact reads_stringFrom_end
  | cons c content inductionHypothesis =>
    obtain ⟨more, rfl⟩ : ∃ more, fuel = more + 1 := ⟨fuel - 1, by simp at enough; omega⟩
    have fewer : content.length < more := by simpa using enough
    have moved : done.reverse ++ c :: content = (c :: done).reverse ++ content := by simp
    rw [moved, List.flatMap_cons, List.map_append, List.append_assoc]
    have spelling := spelling_escapeChar c
    generalize escapeChar c = spelled at spelling
    cases spelling with
    | plain quote backslash control =>
      exact reads_stringFrom_plain quote backslash control (inductionHypothesis (by omega))
    | letter letter numeric names =>
      exact reads_stringFrom_escape (.letter letter numeric names) (by simp) (inductionHypothesis fewer)
    | digits high low basic names =>
      exact reads_stringFrom_escape (.digits high low basic names) (by simp) (inductionHypothesis fewer)

/-- No character is written by nothing, so the written content is at least as long as the content. -/
theorem length_le_escaped (content : List Char) : content.length ≤ (content.flatMap escapeChar).length := by
  induction content with
  | nil => simp
  | cons c content inductionHypothesis =>
    have spelling := spelling_escapeChar c
    have some : 1 ≤ (escapeChar c).length := by
      generalize escapeChar c = spelled at spelling
      cases spelling <;> simp
    simp only [List.flatMap_cons, List.length_append, List.length_cons]
    omega

/-- A string behind its opening quote. There are as many steps as glyphs ahead, which is enough for its content and the
closing quote. -/
theorem reads_string (s : String) :
    string.Reads depth (((s.toList.flatMap escapeChar) ++ ['"']).map .char ++ rest) rest s := by
  have parts : ((s.toList.flatMap escapeChar) ++ ['"']).map Glyph.char ++ rest =
      (s.toList.flatMap escapeChar).map .char ++ .char '"' :: rest := by simp
  rw [parts]
  generalize is : (s.toList.flatMap escapeChar).map Glyph.char ++ .char '"' :: rest = ahead
  have enough : s.toList.length < ahead.length + 1 := by
    have := length_le_escaped s.toList
    simp only [← is, List.length_append, List.length_map]
    omega
  have content : (stringFrom (ahead.length + 1) [] none).Reads depth ahead rest (String.ofList ([].reverse ++ s.toList)) := by
    rw [← is] at enough ⊢
    exact reads_stringFrom s.toList enough
  rw [List.reverse_nil, List.nil_append, String.ofList_toList] at content
  unfold string
  apply reads_get_bind
  intro cursor here level
  rw [here]
  exact content

end Reader

end Turnstile.Json
