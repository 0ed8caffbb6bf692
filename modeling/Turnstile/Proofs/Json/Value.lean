import Turnstile.Proofs.Json.Number
import Turnstile.Proofs.Json.Text

/-!
Values are read as they are written.

The text of a value is read as the value with its members sorted, if the value has no doubles in it, its whole numbers
fit in 64 bits, and it is not nested too deeply. The argument follows the value: what is written for a part is read as
the part whatever comes behind it, as long as no number goes on there. The steps that a reader allows itself are
enough because each of them is at a character of the text.
-/

namespace Turnstile.Json

open Text (Glyph)

namespace Value

mutual

/-- No doubles, and whole numbers of 64 bits. -/
def Plain : Value → Prop
  | .integer n => -(signedLimit : Int) ≤ n ∧ n < word64Limit
  | .real _ => False
  | .array items => PlainItems items
  | .object members => PlainMembers members
  | .null | .bool _ | .text _ => True

def PlainItems : List Value → Prop
  | [] => True
  | v :: rest => v.Plain ∧ PlainItems rest

def PlainMembers : List (String × Value) → Prop
  | [] => True
  | (_, v) :: rest => v.Plain ∧ PlainMembers rest

end

mutual

/-- How deep arrays and objects are nested. -/
def levels : Value → Nat
  | .array items => itemsLevels items + 1
  | .object members => membersLevels members + 1
  | .null | .bool _ | .integer _ | .real _ | .text _ => 0

def itemsLevels : List Value → Nat
  | [] => 0
  | v :: rest => max v.levels (itemsLevels rest)

def membersLevels : List (String × Value) → Nat
  | [] => 0
  | (_, v) :: rest => max v.levels (membersLevels rest)

end

/-- What is written behind an item. -/
def moreItems : List Value → List Char
  | [] => []
  | items => ',' :: itemsChars items

/-- What is written behind a member. -/
def moreMembers : List (String × Value) → List Char
  | [] => []
  | members => ',' :: membersChars members

/-- The first item is written as it is, and the others behind their commas. -/
theorem itemsChars_cons (v : Value) (rest : List Value) : itemsChars (v :: rest) = v.chars ++ moreItems rest := by
  cases rest with
  | nil => simp only [itemsChars, moreItems, List.append_nil]
  | cons w rest => rfl

/-- So is the first member, with its name in front. -/
theorem membersChars_cons (name : String) (v : Value) (rest : List (String × Value)) :
    membersChars ((name, v) :: rest) = stringChars name ++ ':' :: (v.chars ++ moreMembers rest) := by
  cases rest with
  | nil => simp only [membersChars, moreMembers, List.append_nil]
  | cons w rest => rfl

/-- A whole number that 64 bits have room for is written by its sign and its digits. -/
theorem integerChars {n : Int} (plain : (Value.integer n).Plain) :
    ∃ negative m, Reader.Fits negative m ∧ Reader.signed negative m = n ∧
      (Value.integer n).chars = (if negative then ['-'] else []) ++ Nat.toDigits 10 m := by
  obtain ⟨lower, upper⟩ := plain
  cases n with
  | ofNat m =>
    apply Exists.intro false
    apply Exists.intro m
    refine ⟨⟨Int.ofNat_lt.mp upper, by simp⟩, rfl, ?_⟩
    exact Nat.toList_repr
  | negSucc m =>
    apply Exists.intro true
    apply Exists.intro (m + 1)
    have small : m + 1 ≤ signedLimit := by omega
    refine ⟨⟨?_, fun _ => ⟨by omega, small⟩⟩, rfl, ?_⟩
    · exact Nat.lt_of_le_of_lt small (by decide)
    · change ("-" ++ Nat.repr (m + 1)).toList = _
      rw [String.toList_append, Nat.toList_repr]
      rfl

/-- A digit is no character that means anything else. -/
theorem ne_of_digit {c d : Char} (digit : c.isDigit = true) (no : d.isDigit = false) : c ≠ d := by
  rintro rfl
  rw [digit] at no
  cases no

/-- The digits of a number begin with one, for there is at least one. -/
theorem exists_digit (m : Nat) : ∃ c more, Nat.toDigits 10 m = c :: more ∧ c.isDigit = true := by
  obtain ⟨c, more, digits⟩ := List.exists_cons_of_ne_nil (Nat.toDigits_ne_nil (n := m) (b := 10))
  have here : c ∈ Nat.toDigits 10 m := digits ▸ List.mem_cons_self
  exact ⟨c, more, digits, Nat.isDigit_of_mem_toDigits (by decide) (by decide) here⟩

/-- What is written for a value begins with a character that is neither blank nor a closing bracket. So a reader that
looks ahead sees the value coming. -/
theorem front_chars (v : Value) (plain : v.Plain) :
    ∃ c more, v.chars = c :: more ∧ (c ≠ ' ' ∧ c ≠ '\n' ∧ c ≠ '\t' ∧ c ≠ '\r') ∧ c ≠ ']' := by
  cases v with
  | null => exact ⟨'n', _, rfl, by decide, by decide⟩
  | bool b => cases b <;> exact ⟨_, _, rfl, by decide, by decide⟩
  | text s => exact ⟨'"', _, by rw [chars, stringChars], by decide, by decide⟩
  | array items => exact ⟨'[', _, by rw [chars], by decide, by decide⟩
  | object members => exact ⟨'\x7b', _, by rw [chars], by decide, by decide⟩
  | real x => exact absurd plain (by simp [Plain])
  | integer n =>
    obtain ⟨negative, m, -, -, is⟩ := integerChars plain
    cases negative with
    | true => exact ⟨'-', _, is, by decide, by decide⟩
    | false =>
      obtain ⟨c, more, digits, digit⟩ := exists_digit m
      refine ⟨c, more, by rw [is, digits]; rfl, ⟨?_, ?_, ?_, ?_⟩, ?_⟩ <;> exact ne_of_digit digit (by decide)

/-- Something is written for every value. -/
theorem chars_pos {v : Value} (plain : v.Plain) : 0 < v.chars.length := by
  obtain ⟨c, more, front, -⟩ := front_chars v plain
  simp [front]

/-- The items behind the first one leave a step for it, as something is written for the first. -/
theorem fewer_items {v : Value} {items : List Value} {fuel : Nat} (plain : v.Plain)
    (enough : (itemsChars (v :: items)).length < fuel + 1) :
    v.chars.length ≤ fuel ∧ (itemsChars items).length < fuel := by
  have pos := chars_pos plain
  have more : (itemsChars items).length ≤ (moreItems items).length := by
    cases items with
    | nil => simp [itemsChars]
    | cons w rest => simp [moreItems]
  rw [itemsChars_cons, List.length_append] at enough
  omega

/-- The members behind the first one leave a step for it, for the quotes of its name if for nothing else. -/
theorem fewer_members {name : String} {v : Value} {members : List (String × Value)} {fuel : Nat}
    (enough : (membersChars ((name, v) :: members)).length < fuel + 1) :
    v.chars.length ≤ fuel ∧ (membersChars members).length < fuel := by
  have more : (membersChars members).length ≤ (moreMembers members).length := by
    cases members with
    | nil => simp [membersChars]
    | cons w rest => simp [moreMembers]
  rw [membersChars_cons] at enough
  simp only [List.length_append, List.length_cons] at enough
  omega

end Value

namespace Reader

open Value

variable {depth : Nat} {rest : List Glyph}

/-- No number goes on behind a comma or a bracket. -/
theorem unnumbered_char {c : Char} (stops : c.isDigit = false ∧ c ≠ '.' ∧ c ≠ 'e' ∧ c ≠ 'E') :
    Unnumbered (.char c :: rest) := by
  intro d is
  obtain rfl := Glyph.char.inj (Option.some.inj is)
  exact stops

/-- What follows an item stops a number: a comma, or the end of the array. -/
theorem unnumbered_moreItems (items : List Value) :
    Unnumbered ((moreItems items).map .char ++ .char ']' :: rest) := by
  cases items <;> exact unnumbered_char (by decide)

/-- What follows a member stops a number as well: a comma, or the end of the object. -/
theorem unnumbered_moreMembers (members : List (String × Value)) :
    Unnumbered ((moreMembers members).map .char ++ .char '\x7d' :: rest) := by
  cases members <;> exact unnumbered_char (by decide)

/-- The next item is come to, at the front of an array or behind another item, where there is a comma to pass over. -/
theorem reads_hasItem_item (first : Bool) {v : Value} (plain : v.Plain) (items : List Value) :
    (hasItem first).Reads depth
      ((if first then itemsChars (v :: items) else moreItems (v :: items)).map .char ++ .char ']' :: rest)
      (v.chars.map .char ++ ((moreItems items).map .char ++ .char ']' :: rest)) true := by
  obtain ⟨c, more, front, visible, item⟩ := front_chars v plain
  have text : (itemsChars (v :: items)).map Glyph.char ++ .char ']' :: rest =
      v.chars.map .char ++ ((moreItems items).map .char ++ .char ']' :: rest) := by
    rw [itemsChars_cons, List.map_append, List.append_assoc]
  have other : Glyph.char c ≠ .char ']' := fun same => item (Glyph.char.inj same)
  cases first with
  | true =>
    simp only [if_true, text, front, List.map_cons, List.cons_append]
    exact reads_hasItem_first (unblank_char visible) other
  | false =>
    simp only [Bool.false_eq_true, if_false, moreItems, List.map_cons, List.cons_append, text, front]
    exact reads_hasItem_next (unblank_char visible) other

/-- The next name is entered, at the front of an object or behind another member; what is left begins inside the quotes. -/
theorem reads_hasMember_member (first : Bool) (name : String) (v : Value) (members : List (String × Value)) :
    (hasMember first).Reads depth
      ((if first then membersChars ((name, v) :: members) else moreMembers ((name, v) :: members)).map .char ++
        .char '\x7d' :: rest)
      ((name.toList.flatMap escapeChar ++ ['"']).map .char ++ (.char ':' ::
        (v.chars.map .char ++ ((moreMembers members).map .char ++ .char '\x7d' :: rest)))) true := by
  have text : (membersChars ((name, v) :: members)).map Glyph.char ++ .char '\x7d' :: rest =
      .char '"' :: ((name.toList.flatMap escapeChar ++ ['"']).map .char ++ (.char ':' ::
        (v.chars.map .char ++ ((moreMembers members).map .char ++ .char '\x7d' :: rest)))) := by
    rw [membersChars_cons]
    simp [stringChars]
  cases first with
  | true =>
    simp only [if_true, text]
    exact reads_hasMember_first
  | false =>
    simp only [Bool.false_eq_true, if_false, moreMembers, List.map_cons, List.cons_append, text]
    exact reads_hasMember_next

mutual

/-- What is written for a value is read as the value with its members sorted. Which reader takes over is told by the
first character; arrays and objects go one level deeper, to the two lemmas below. -/
theorem reads_value (v : Value) (plain : v.Plain) (fuel depth : Nat) (rest : List Glyph)
    (enough : v.chars.length ≤ fuel) (shallow : v.levels < depth) (stops : Unnumbered rest) :
    (valueFrom fuel).Reads depth (v.chars.map .char ++ rest) rest v.sorted := by
  obtain ⟨c, more, front, visible, -⟩ := front_chars v plain
  obtain ⟨fuel, rfl⟩ : ∃ n, fuel = n + 1 := ⟨fuel - 1, by have := chars_pos plain; omega⟩
  have unblank : Unblank (v.chars.map Glyph.char ++ rest) := by
    rw [front]
    exact unblank_char visible
  rw [valueFrom]
  apply reads_skipBlanks_bind unblank
  cases v with
  | null => exact reads_bump.bind ((reads_word _).bind reads_pure)
  | bool b => cases b <;> exact reads_bump.bind ((reads_word _).bind reads_pure)
  | real x => exact absurd plain (by simp [Plain])
  | text s => exact reads_bump.bind ((reads_string s).bind reads_pure)
  | integer n =>
    obtain ⟨negative, m, fits, value, is⟩ := integerChars plain
    have digits : (do return (← number negative).value : Reader Value).Reads depth
        ((Nat.toDigits 10 m).map .char ++ rest) rest (.integer n) := by
      rw [← value]
      exact (reads_number fits stops).map Number.value
    rw [is]
    cases negative with
    | true => exact reads_bump.bind digits
    | false =>
      obtain ⟨d, others, split, digit⟩ := exists_digit m
      have other {e : Char} (no : e.isDigit = false) : d ≠ e := ne_of_digit digit no
      have plainDigit : d ≠ 'n' ∧ d ≠ 't' ∧ d ≠ 'f' ∧ d ≠ '-' :=
        ⟨other (by decide), other (by decide), other (by decide), other (by decide)⟩
      simp only [Bool.false_eq_true, if_false, List.nil_append] at digits ⊢
      rw [split] at digits ⊢
      simp only [List.map_cons, List.cons_append, List.head?_cons, plainDigit, digit, if_true, if_false]
      exact digits
  | array items =>
    obtain ⟨depth, rfl⟩ : ∃ d, depth = d + 1 := ⟨depth - 1, by omega⟩
    have inside := reads_items items plain fuel depth rest true []
      (by simp [chars] at enough; omega) (by simpa [levels] using shallow)
    have room : 0 < depth := by simp [levels] at shallow; omega
    have brackets := (inside.enclosed (g := .char '[') room reads_closeList).map Value.array
    simpa [chars, Value.sorted] using brackets
  | object members =>
    obtain ⟨depth, rfl⟩ : ∃ d, depth = d + 1 := ⟨depth - 1, by omega⟩
    have inside := reads_members members plain fuel depth rest true []
      (by simp [chars] at enough; omega) (by simpa [levels] using shallow)
    have room : 0 < depth := by simp [levels] at shallow; omega
    have brackets := (inside.enclosed (g := .char '\x7b') room reads_closeObject).map Value.object
    simpa [chars, Value.sorted] using brackets

/-- Items are read one by one, behind those that are done already. -/
theorem reads_items (items : List Value) (plain : PlainItems items) (fuel depth : Nat) (rest : List Glyph)
    (first : Bool) (done : List Value) (enough : (itemsChars items).length < fuel) (shallow : itemsLevels items < depth) :
    (itemsFrom fuel first done).Reads depth
      ((if first then itemsChars items else moreItems items).map .char ++ .char ']' :: rest) (.char ']' :: rest)
      (done.reverse ++ sortedItems items) := by
  obtain ⟨fuel, rfl⟩ : ∃ n, fuel = n + 1 := ⟨fuel - 1, by omega⟩
  rw [itemsFrom]
  cases items with
  | nil =>
    have ended : (if first then itemsChars [] else moreItems []) = [] := by cases first <;> rfl
    rw [ended]
    refine Reads.bind reads_hasItem_end ?_
    simp only [sortedItems, List.append_nil]
    exact reads_pure
  | cons v items =>
    obtain ⟨here, others⟩ := plain
    obtain ⟨enoughHere, enoughOthers⟩ := fewer_items here enough
    have levels : v.levels < depth ∧ itemsLevels items < depth := Nat.max_lt.mp shallow
    have onward := reads_items items others fuel depth rest false (v.sorted :: done) enoughOthers levels.2
    refine Reads.bind (reads_hasItem_item first here items) ?_
    refine Reads.bind (reads_value v here fuel depth _ enoughHere levels.1 (unnumbered_moreItems items)) ?_
    simpa [sortedItems] using onward

/-- Members are read one by one, and each is put to its place among those that are done. -/
theorem reads_members (members : List (String × Value)) (plain : PlainMembers members) (fuel depth : Nat)
    (rest : List Glyph) (first : Bool) (done : List (String × Value)) (enough : (membersChars members).length < fuel)
    (shallow : membersLevels members < depth) :
    (membersFrom fuel first done).Reads depth
      ((if first then membersChars members else moreMembers members).map .char ++ .char '\x7d' :: rest)
      (.char '\x7d' :: rest) (sortedMembers members done) := by
  obtain ⟨fuel, rfl⟩ : ∃ n, fuel = n + 1 := ⟨fuel - 1, by omega⟩
  rw [membersFrom]
  cases members with
  | nil =>
    have ended : (if first then membersChars [] else moreMembers []) = [] := by cases first <;> rfl
    rw [ended]
    refine Reads.bind reads_hasMember_end ?_
    exact reads_pure
  | cons member members =>
    obtain ⟨name, v⟩ := member
    obtain ⟨here, others⟩ := plain
    obtain ⟨enoughHere, enoughOthers⟩ := fewer_members enough
    have levels : v.levels < depth ∧ membersLevels members < depth := Nat.max_lt.mp shallow
    have onward := reads_members members others fuel depth rest false (put name v.sorted done) enoughOthers levels.2
    refine Reads.bind (reads_hasMember_member first name v members) ?_
    refine Reads.bind (reads_string name) ?_
    refine Reads.bind reads_colon ?_
    refine Reads.bind (reads_value v here fuel depth _ enoughHere levels.1 (unnumbered_moreMembers members)) ?_
    simpa [sortedMembers] using onward

end

/-- The reader of any value allows itself steps enough: as many as there are glyphs ahead, and no value is written by
fewer than it takes steps. -/
theorem reads_whole_value {v : Value} (plain : v.Plain) (shallow : v.levels < depth) (stops : Unnumbered rest) :
    value.Reads depth (v.chars.map .char ++ rest) rest v.sorted := by
  unfold value steps
  apply reads_get_bind
  intro cursor here level
  apply reads_value v plain _ _ _ _ shallow stops
  rw [here]
  simp only [List.length_append, List.length_map]
  omega

end Reader

end Turnstile.Json
