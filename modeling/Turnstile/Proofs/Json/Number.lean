import Turnstile.Proofs.Json.Reading

/-!
Whole numbers are read as they are written.

The digits of a whole number are taken one by one onto the number so far, which is the number that the digits stand
for. A number stops where neither a digit nor a point nor an exponent follows. Doubles are not spoken of here.
-/

namespace Turnstile.Json

open Text (Glyph)

/-- The digits of a number that is not zero do not begin with a zero. The induction is on the number without its last
digit, which has the same first one. -/
theorem first_digit {n : Nat} (positive : 0 < n) :
    ∃ c digits, Nat.toDigits 10 n = c :: digits ∧ c.toNat - '0'.toNat ≠ 0 := by
  induction n using Nat.strongRecOn with
  | ind n inductionHypothesis =>
    by_cases small : n < 10
    · apply Exists.intro n.digitChar
      apply Exists.intro []
      constructor
      · exact Nat.toDigits_of_lt_base small
      · rw [Nat.toNat_digitChar_of_lt_ten small]
        change 48 + n - 48 ≠ 0
        omega
    · obtain ⟨c, digits, is, first⟩ := inductionHypothesis (n / 10) (by omega) (by omega)
      apply Exists.intro c
      apply Exists.intro (digits ++ [(n % 10).digitChar])
      constructor
      · rw [Nat.toDigits_of_base_le (by omega) (by omega), is]
        rfl
      · exact first

namespace Reader

variable {depth : Nat} {ahead rest : List Glyph}

/-- No number goes on here. -/
def Unnumbered (rest : List Glyph) : Prop :=
  ∀ c, rest.head? = some (.char c) → c.isDigit = false ∧ c ≠ '.' ∧ c ≠ 'e' ∧ c ≠ 'E'

/-- The next character, or the null character. -/
def front : List Glyph → Char
  | .char c :: _ => c
  | _ => Char.ofNat 0

/-- What stops a number is no digit, no point and no exponent, and neither is the character that stands for the end of
the text. -/
theorem Unnumbered.front (stops : Unnumbered rest) :
    (front rest).isDigit = false ∧ front rest ≠ '.' ∧ front rest ≠ 'e' ∧ front rest ≠ 'E' := by
  have null : (Char.ofNat 0).isDigit = false ∧ Char.ofNat 0 ≠ '.' ∧ Char.ofNat 0 ≠ 'e' ∧ Char.ofNat 0 ≠ 'E' := by
    decide
  match rest, stops with
  | [], _ => exact null
  | .stray _ :: _, _ => exact null
  | .char c :: _, stops => exact stops c rfl

/-- A look at the next character passes nothing over. -/
theorem reads_peekChar : peekChar.Reads depth ahead ahead (front ahead) := by
  apply reads_get_bind
  intro cursor here level
  have is : cursor.peekChar = front ahead := by
    subst here
    unfold Cursor.peekChar front
    rcases cursor.ahead with _ | ⟨_ | _, _⟩ <;> rfl
  rw [is]
  exact reads_pure

/-- Digits make a number that is no smaller than the one they are put onto, since each makes it ten times as large at
least. -/
theorem le_ofDigitChars (digits : List Char) (n : Nat) : n ≤ Nat.ofDigitChars 10 digits n := by
  induction digits generalizing n with
  | nil => simp
  | cons c digits inductionHypothesis =>
    rw [Nat.ofDigitChars_cons]
    have := inductionHypothesis (10 * n + (c.toNat - '0'.toNat))
    omega

/-- Digits are taken as long as the number stays below the limit. What is reached in between is no larger than the
number in the end, so if that fits they are all taken. -/
theorem takeDigits_eq {limit count : Nat} (digits : List Char) (n : Nat) (all : ∀ c ∈ digits, c.isDigit = true)
    (below : Nat.ofDigitChars 10 digits n < limit) (stops : Unnumbered rest) :
    takeDigits limit n count (digits.map .char ++ rest) =
      (Nat.ofDigitChars 10 digits n, count + digits.length, rest) := by
  induction digits generalizing n count with
  | nil =>
    match rest, stops with
    | [], _ => rfl
    | .stray _ :: _, _ => rfl
    | .char c :: more, stops => simp [takeDigits, (stops c rfl).1]
  | cons c digits inductionHypothesis =>
    rw [Nat.ofDigitChars_cons] at below
    have more := le_ofDigitChars digits (10 * n + (c.toNat - '0'.toNat))
    have value : n * 10 + digitValue c = 10 * n + (c.toNat - '0'.toNat) := by rw [Nat.mul_comm]; rfl
    have taken : c.isDigit = true ∧ n * 10 + digitValue c < limit := by
      constructor
      · exact all c List.mem_cons_self
      · omega
    rw [List.map_cons, List.cons_append, takeDigits, if_pos taken, value,
      inductionHypothesis _ (fun c here => all c (List.mem_cons_of_mem _ here)) below, Nat.ofDigitChars_cons,
      List.length_cons, Nat.add_assoc, Nat.add_comm 1]

/-- Digits behind a number are read onto it, and how many there were is told. -/
theorem reads_digitsOnto {digits : List Char} {n : Nat} (all : ∀ c ∈ digits, c.isDigit = true)
    (below : Nat.ofDigitChars 10 digits n < word64Limit) (stops : Unnumbered rest) :
    (digitsOnto n).Reads depth (digits.map .char ++ rest) rest (Nat.ofDigitChars 10 digits n, digits.length) := by
  apply reads_get_bind
  intro cursor here level
  simp only [here, takeDigits_eq digits n all below stops, Nat.zero_add]
  exact reads_advanceTo.bind reads_pure

/-- Where the digits have ended there are none to skip. -/
theorem reads_digitsSkipped (stops : Unnumbered rest) : digitsSkipped.Reads depth rest rest 0 := by
  have none : skipDigits 0 rest = (0, rest) := by
    match rest, stops with
    | [], _ => rfl
    | .stray _ :: _, _ => rfl
    | .char c :: _, stops => simp [skipDigits, (stops c rfl).1]
  apply reads_get_bind
  intro cursor here level
  simp only [here, none]
  exact reads_advanceTo.bind reads_pure

/-- A whole number with its sign. -/
def signed (negative : Bool) (n : Nat) : Int := if negative then -n else n

/-- A number with a sign that 64 bits have room for. Zero has none. -/
def Fits (negative : Bool) (n : Nat) : Prop := n < word64Limit ∧ (negative = true → 0 < n ∧ n ≤ signedLimit)

/-- A number with no point and no exponent is whole, and it is told with its sign if 64 bits have room for it. -/
theorem reads_numberTail {negative : Bool} {n : Nat} (fits : Fits negative n) (stops : Unnumbered rest) :
    (numberTail negative n 0).Reads depth rest rest (.integer (signed negative n)) := by
  obtain ⟨-, point, lower, upper⟩ := stops.front
  apply reads_peekChar.bind
  simp only [point, lower, upper, or_self, if_false, ne_eq, not_true_eq_false]
  cases negative with
  | false => exact reads_pure
  | true =>
    have real : ¬ (n = 0 ∨ signedLimit < n) := by
      have := fits.2 rfl
      omega
    simp only [Bool.not_true, Bool.false_eq_true, if_false, real]
    exact reads_pure

/-- A whole number behind its sign. A zero stands alone; any other begins with a digit that is not zero, and the
remaining ones are read onto that. -/
theorem reads_number {negative : Bool} {n : Nat} (fits : Fits negative n) (stops : Unnumbered rest) :
    (number negative).Reads depth ((Nat.toDigits 10 n).map .char ++ rest) rest (.integer (signed negative n)) := by
  have digits : ∀ c ∈ Nat.toDigits 10 n, c.isDigit = true :=
    fun c here => Nat.isDigit_of_mem_toDigits (by decide) (by decide) here
  have whole : Nat.ofDigitChars 10 (Nat.toDigits 10 n) 0 = n := Nat.ofDigitChars_toDigits (by decide) (by decide)
  rcases Nat.eq_zero_or_pos n with rfl | positive
  · change (number negative).Reads depth (.char '0' :: rest) rest (.integer (signed negative 0))
    refine Reads.bind (reads_nextOr (a := 0) (by decide)) ?_
    refine Reads.bind reads_peekChar ?_
    simp only [stops.front.1, Bool.false_eq_true, if_false]
    exact reads_numberTail fits stops
  · obtain ⟨c, more, is, first⟩ := first_digit positive
    rw [is] at digits whole ⊢
    rw [Nat.ofDigitChars_cons, Nat.mul_zero, Nat.zero_add] at whole
    have front : digit? c = some (c.toNat - '0'.toNat) := by
      rw [digit?, if_pos (digits c List.mem_cons_self)]
      rfl
    refine Reads.bind (reads_nextOr front) ?_
    rw [if_neg first]
    refine Reads.bind (reads_digitsOnto (fun c here => digits c (List.mem_cons_of_mem _ here)) ?_ stops) ?_
    · rw [whole]
      exact fits.1
    · rw [whole]
      exact (reads_digitsSkipped stops).bind (reads_numberTail fits stops)

end Reader

end Turnstile.Json
