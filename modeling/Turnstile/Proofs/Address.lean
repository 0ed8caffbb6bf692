import Mathlib.Data.List.Basic
import Turnstile.Address
import Turnstile.Proofs.Key.Segments

/-!
The text of an address tells the address.

The groups of an address of version 6 are written with colons between them, and one run of zero groups may be left out. Two
colons stand there and nowhere else, since no group is written by nothing. So the text tells the groups in front of the
run and those behind it, and the run is as long as groups are missing. Points stand only in an address that is, or stands
for, one of version 4, and an address of version 4 has no colon.
-/

namespace Turnstile

/-! Numbers in digits. -/

section

variable {b m n : Nat}

/-- The sixteen digits are sixteen characters. There are few enough of them to compare each with each. -/
theorem digitChar_injective {d e : Nat} (small : d < 16) (small' : e < 16) (same : d.digitChar = e.digitChar) : d = e := by
  have all : ∀ d < 16, ∀ e < 16, d.digitChar = e.digitChar → d = e := by decide
  exact all d small e small' same

/-- A number is told by its digits. The last digit tells the remainder, and the digits in front of it tell the quotient,
which is smaller. -/
theorem toDigits_injective (base : 1 < b) (few : b ≤ 16) (same : Nat.toDigits b m = Nat.toDigits b n) : m = n := by
  induction m using Nat.strongRecOn generalizing n with
  | ind m inductionHypothesis =>
    have short {k : Nat} (small : k < b) : Nat.toDigits b k = [k.digitChar] := Nat.toDigits_of_lt_base small
    have long {k : Nat} (large : b ≤ k) : Nat.toDigits b k = Nat.toDigits b (k / b) ++ [(k % b).digitChar] :=
      Nat.toDigits_of_base_le base large
    have unequal {c : Char} {k : Nat} : [c] ≠ Nat.toDigits b (k / b) ++ [(k % b).digitChar] := by
      intro same
      have lengths := congrArg List.length same
      simp at lengths
    rcases Nat.lt_or_ge m b with small | large <;> rcases Nat.lt_or_ge n b with small' | large'
    · rw [short small, short small'] at same
      exact digitChar_injective (by omega) (by omega) (List.head_eq_of_cons_eq same)
    · rw [short small, long large'] at same
      exact absurd same unequal
    · rw [long large, short small'] at same
      exact absurd same.symm unequal
    · rw [long large, long large'] at same
      obtain ⟨front, last⟩ := List.append_inj' same rfl
      have quotients : m / b = n / b := inductionHypothesis (m / b) (Nat.div_lt_self (by omega) base) front
      have rest : m % b < b := Nat.mod_lt m (by omega)
      have rest' : n % b < b := Nat.mod_lt n (by omega)
      have remainders : m % b = n % b :=
        digitChar_injective (by omega) (by omega) (List.head_eq_of_cons_eq last)
      rw [← Nat.div_add_mod m b, ← Nat.div_add_mod n b, quotients, remainders]

/-- Numbers are written with the digits of their base and nothing else: each character stands for the remainder of some
quotient. -/
theorem mem_toDigits (base : 1 < b) {c : Char} (here : c ∈ Nat.toDigits b n) : ∃ d < b, c = d.digitChar := by
  induction n using Nat.strongRecOn with
  | ind n inductionHypothesis =>
    rcases Nat.lt_or_ge n b with small | large
    · rw [Nat.toDigits_of_lt_base small] at here
      exact ⟨n, small, List.mem_singleton.mp here⟩
    · rw [Nat.toDigits_of_base_le base large] at here
      rcases List.mem_append.mp here with front | last
      · exact inductionHypothesis (n / b) (Nat.div_lt_self (by omega) base) front
      · exact ⟨n % b, Nat.mod_lt n (by omega), List.mem_singleton.mp last⟩

end

namespace Address

/-- The hexadecimal digits. -/
def IsDigit (c : Char) : Prop := ∃ d < 16, c = Nat.digitChar d

/-- No digit is a colon or a point, so the separators of an address can be told from its numbers. -/
theorem IsDigit.not_separator {c : Char} (digit : IsDigit c) : c ≠ ':' ∧ c ≠ '.' := by
  have all : ∀ d < 16, Nat.digitChar d ≠ ':' ∧ Nat.digitChar d ≠ '.' := by decide
  obtain ⟨d, small, rfl⟩ := digit
  exact all d small

/-- Both bases that addresses use, ten and sixteen, write with hexadecimal digits. -/
theorem isDigit_of_mem {b n : Nat} (base : 1 < b) (few : b ≤ 16) {c : Char} (here : c ∈ Nat.toDigits b n) : IsDigit c := by
  obtain ⟨d, small, is⟩ := mem_toDigits base here
  exact ⟨d, by omega, is⟩

/-! Version 4. -/

section

variable {a b c d : Nat}

/-- The text of an address of version 4 is its four numbers in decimal, with points between them. -/
theorem toList_textV4 (a b c d : Nat) : (textV4 a b c d).toList = Nat.toDigits 10 a ++ '.' ::
    (Nat.toDigits 10 b ++ '.' :: (Nat.toDigits 10 c ++ '.' :: Nat.toDigits 10 d)) := by
  simp [textV4, toString, Nat.toList_repr]

/-- An address of version 4 is written with digits and points. In particular its text has no colon. -/
theorem mem_textV4 {x : Char} (here : x ∈ (textV4 a b c d).toList) : IsDigit x ∨ x = '.' := by
  have digit {n : Nat} (here : x ∈ Nat.toDigits 10 n) : IsDigit x := isDigit_of_mem (by decide) (by decide) here
  rw [toList_textV4] at here
  simp only [List.mem_append, List.mem_cons] at here
  rcases here with here | point | here | point | here | point | here
  · exact .inl (digit here)
  · exact .inr point
  · exact .inl (digit here)
  · exact .inr point
  · exact .inl (digit here)
  · exact .inr point
  · exact .inl (digit here)

/-- The text of an address of version 4 tells its four numbers. No number holds a point, so each point ends the number
in front of it. -/
theorem textV4_injective {a' b' c' d' : Nat} (same : textV4 a b c d = textV4 a' b' c' d') :
    a = a' ∧ b = b' ∧ c = c' ∧ d = d' := by
  have plain (n : Nat) : '.' ∉ Nat.toDigits 10 n :=
    fun here => (isDigit_of_mem (by decide) (by decide) here).not_separator.2 rfl
  have number {m n : Nat} (same : Nat.toDigits 10 m = Nat.toDigits 10 n) : m = n :=
    toDigits_injective (by decide) (by decide) same
  have chars := congrArg String.toList same
  rw [toList_textV4, toList_textV4] at chars
  obtain ⟨first, chars⟩ := parts_of_separated (plain a) (plain a') chars
  obtain ⟨second, chars⟩ := parts_of_separated (plain b) (plain b') chars
  obtain ⟨third, fourth⟩ := parts_of_separated (plain c) (plain c') chars
  exact ⟨number first, number second, number third, number fourth⟩

end

/-! Groups. -/

section

variable {g : UInt16} {gs gs' : List UInt16} {s s' : List Char}

/-- A group is written as its number in hexadecimal, without zeros in front. -/
theorem toList_groupText (g : UInt16) : (groupText g).toList = Nat.toDigits 16 g.toNat := String.toList_ofList

/-- A group is written with digits, as every number is. -/
theorem isDigit_of_mem_groupText {c : Char} (here : c ∈ (groupText g).toList) : IsDigit c := by
  rw [toList_groupText] at here
  exact isDigit_of_mem (by decide) (by decide) here

/-- No colon stands in a group, so a colon behind a group ends it. -/
theorem colon_not_mem_groupText (g : UInt16) : ':' ∉ (groupText g).toList :=
  fun here => (isDigit_of_mem_groupText here).not_separator.1 rfl

/-- The text of a group tells the group, since its digits tell the number. -/
theorem groupText_injective {g g' : UInt16} (same : (groupText g).toList = (groupText g').toList) : g = g' := by
  rw [toList_groupText, toList_groupText] at same
  exact UInt16.toNat_inj.mp (toDigits_injective (by decide) (by decide) same)

/-- A group does not begin with a colon: its number has a digit, also when the number is zero, and that digit comes
first. -/
theorem groupText_ne_colon (g : UInt16) (after rest : List Char) : (groupText g).toList ++ after ≠ ':' :: rest := by
  intro same
  have plain := colon_not_mem_groupText g
  have some : (groupText g).toList ≠ [] := by
    rw [toList_groupText]
    exact Nat.toDigits_ne_nil
  obtain ⟨c, more, is⟩ := List.exists_cons_of_ne_nil some
  rw [is, List.cons_append] at same
  rw [is] at plain
  exact plain (List.mem_cons.mpr (.inl (List.head_eq_of_cons_eq same).symm))

/-- Groups behind another, each with a colon in front. -/
def groupsBehind (gs : List UInt16) : List Char := gs.flatMap fun g => ':' :: (groupText g).toList

/-- The first group of several stands alone, and each further one has a colon in front. In this form the groups can be
read one after another. -/
theorem toList_groupsText_cons (g : UInt16) (gs : List UInt16) :
    (groupsText (g :: gs)).toList = (groupText g).toList ++ groupsBehind gs := by
  induction gs generalizing g with
  | nil => simp [groupsText, groupsBehind]
  | cons g' gs inductionHypothesis =>
    have onward : (groupsText (g :: g' :: gs)).toList = (groupText g).toList ++ ':' :: (groupsText (g' :: gs)).toList := by
      simp [groupsText, String.intercalate_cons_cons]
    rw [onward, inductionHypothesis]
    simp [groupsBehind]

/-- What may stand where groups end: nothing, or two colons. -/
def IsStop (s : List Char) : Prop := s = [] ∨ ∃ rest, s = ':' :: ':' :: rest

/-- Where groups end, no group follows, neither at once nor behind a colon. A group begins with a digit, and a stop is
empty or begins with two colons. -/
theorem IsStop.ne_groups {after : List Char} (stop : IsStop s) (g : UInt16) :
    s ≠ (groupText g).toList ++ after ∧ s ≠ ':' :: ((groupText g).toList ++ after) := by
  have some : (groupText g).toList ≠ [] := by
    rw [toList_groupText]
    exact Nat.toDigits_ne_nil
  rcases stop with rfl | ⟨rest, rfl⟩
  · constructor
    · intro same
      exact some (List.append_eq_nil_iff.mp same.symm).1
    · intro same
      cases same
  · constructor
    · intro same
      exact groupText_ne_colon g after _ same.symm
    · intro same
      exact groupText_ne_colon g after _ (List.tail_eq_of_cons_eq same).symm

/-- Where a group ends, nothing follows or a colon does, be it the colon of the next group or the stop itself. -/
theorem groupsBehind_ends (gs : List UInt16) (stop : IsStop s) :
    groupsBehind gs ++ s = [] ∨ ∃ rest, groupsBehind gs ++ s = ':' :: rest := by
  cases gs with
  | nil =>
    rcases stop with rfl | ⟨rest, rfl⟩
    · exact .inl rfl
    · exact .inr ⟨_, rfl⟩
  | cons g gs => exact .inr ⟨_, rfl⟩

/-- Text without a colon, in front of nothing or of a colon, has one reading. If one reading went on where the other
ends, its text would hold the colon. -/
theorem parts_of_ended {a a' : List Char} (plain : ':' ∉ a) (plain' : ':' ∉ a') (ends : s = [] ∨ ∃ rest, s = ':' :: rest)
    (ends' : s' = [] ∨ ∃ rest, s' = ':' :: rest) (same : a ++ s = a' ++ s') : a = a' ∧ s = s' := by
  rcases ends with rfl | ⟨rest, rfl⟩ <;> rcases ends' with rfl | ⟨rest', rfl⟩
  · exact ⟨by simpa using same, rfl⟩
  · exact absurd (by rw [← List.append_nil a, same]; simp) plain
  · exact absurd (by rw [← List.append_nil a', ← same]; simp) plain'
  · obtain ⟨first, second⟩ := parts_of_separated plain plain' same
    exact ⟨first, congrArg _ second⟩

/-- Groups behind another, up to where they end, have one reading. Each colon is followed by a group or by the second
colon of a stop, and no group begins with a colon. -/
theorem groupsBehind_eq (stop : IsStop s) (stop' : IsStop s') (same : groupsBehind gs ++ s = groupsBehind gs' ++ s') :
    gs = gs' ∧ s = s' := by
  induction gs generalizing gs' with
  | nil =>
    cases gs' with
    | nil => exact ⟨rfl, same⟩
    | cons g' gs' =>
      refine absurd same ?_
      simpa [groupsBehind] using (stop.ne_groups g').2
  | cons g gs inductionHypothesis =>
    cases gs' with
    | nil =>
      refine absurd same.symm ?_
      simpa [groupsBehind] using (stop'.ne_groups g).2
    | cons g' gs' =>
      have onward : (groupText g).toList ++ (groupsBehind gs ++ s) = (groupText g').toList ++ (groupsBehind gs' ++ s') := by
        simpa [groupsBehind] using same
      obtain ⟨first, rest⟩ := parts_of_ended (colon_not_mem_groupText g) (colon_not_mem_groupText g')
        (groupsBehind_ends gs stop) (groupsBehind_ends gs' stop') onward
      obtain ⟨rfl, rfl⟩ := inductionHypothesis rest
      exact ⟨congrArg (· :: gs) (groupText_injective first), rfl⟩

/-- Groups up to their end have one reading: the first group ends at a colon or at the stop, and the groups behind it
are read one by one. -/
theorem groupsText_eq (stop : IsStop s) (stop' : IsStop s')
    (same : (groupsText gs).toList ++ s = (groupsText gs').toList ++ s') : gs = gs' ∧ s = s' := by
  have nothing : (groupsText []).toList = [] := by simp [groupsText]
  cases gs with
  | nil =>
    cases gs' with
    | nil => exact ⟨rfl, by simpa [nothing] using same⟩
    | cons g' gs' =>
      rw [nothing, toList_groupsText_cons, List.append_assoc] at same
      exact absurd same (stop.ne_groups g').1
  | cons g gs =>
    cases gs' with
    | nil =>
      rw [nothing, toList_groupsText_cons, List.append_assoc] at same
      exact absurd same.symm (stop'.ne_groups g).1
    | cons g' gs' =>
      rw [toList_groupsText_cons, toList_groupsText_cons, List.append_assoc, List.append_assoc] at same
      obtain ⟨first, rest⟩ := parts_of_ended (colon_not_mem_groupText g) (colon_not_mem_groupText g')
        (groupsBehind_ends gs stop) (groupsBehind_ends gs' stop') same
      obtain ⟨rfl, rfl⟩ := groupsBehind_eq stop stop' rest
      exact ⟨congrArg (· :: gs) (groupText_injective first), rfl⟩

/-- Groups are written with digits and colons. In particular there is no point among them. -/
theorem mem_groupsText {c : Char} (here : c ∈ (groupsText gs).toList) : IsDigit c ∨ c = ':' := by
  cases gs with
  | nil => simp [groupsText] at here
  | cons g gs =>
    rw [toList_groupsText_cons, List.mem_append] at here
    rcases here with first | behind
    · exact .inl (isDigit_of_mem_groupText first)
    · obtain ⟨g', -, here⟩ := List.mem_flatMap.mp behind
      rcases List.mem_cons.mp here with colon | digit
      · exact .inr colon
      · exact .inl (isDigit_of_mem_groupText digit)

end

/-! Version 6. -/

/-- A run of zeros among groups: where it starts and how long it is. -/
def IsRun (gs : List UInt16) (run : Nat × Nat) : Prop :=
  ∃ front back, gs = front ++ (List.replicate run.2 0 ++ back) ∧ front.length = run.1

/-- The run that is found among the groups is one, if the run that the passed groups end in and the longest one before
it are. The induction goes along the groups that are still to be passed, and each of them makes the current run longer
or ends it. -/
theorem isRun_longestZeros {gs passed rest : List UInt16} {current longest : Nat × Nat} (parts : gs = passed ++ rest)
    (ending : ∃ front, passed = front ++ List.replicate current.2 0 ∧ (current.2 ≠ 0 → front.length = current.1))
    (found : IsRun gs longest) : IsRun gs (longestZeros passed.length current longest rest) := by
  induction rest generalizing passed current longest with
  | nil => exact found
  | cons g rest inductionHypothesis =>
    have parts' : gs = (passed ++ [g]) ++ rest := by rw [parts, List.append_assoc]; rfl
    have index : (passed ++ [g]).length = passed.length + 1 := by simp
    unfold longestZeros
    by_cases zero : g = 0
    · subst zero
      rw [if_pos rfl]
      generalize next : (if current.2 = 0 then (passed.length, 1) else (current.1, current.2 + 1)) = current'
      have ending' : ∃ front, passed ++ [0] = front ++ List.replicate current'.2 0 ∧ front.length = current'.1 := by
        by_cases fresh : current.2 = 0
        · rw [if_pos fresh] at next
          subst next
          exact ⟨passed, rfl, rfl⟩
        · rw [if_neg fresh] at next
          subst next
          obtain ⟨front, is, starts⟩ := ending
          refine ⟨front, ?_, starts fresh⟩
          rw [is, List.append_assoc, List.replicate_succ']
      obtain ⟨front, is, starts⟩ := ending'
      have run : IsRun gs current' := ⟨front, rest, by rw [parts', is, List.append_assoc], starts⟩
      rw [← index]
      refine inductionHypothesis parts' ⟨front, is, fun _ => starts⟩ ?_
      split
      · exact run
      · exact found
    · rw [if_neg zero, ← index]
      exact inductionHypothesis parts' ⟨passed ++ [g], by simp, fun some => absurd rfl some⟩ found

section

variable {gs gs' : List UInt16}

/-- How an address of version 6 is written: as one that stands for an address of version 4, with all its groups, or without
a run of zeros. -/
inductive Written : List UInt16 → List Char → Prop
  | mapped (hi lo : UInt16) : Written [0, 0, 0, 0, 0, 0xffff, hi, lo] ("::ffff:".toList ++
      (textV4 (hi.toNat / 256) (hi.toNat % 256) (lo.toNat / 256) (lo.toNat % 256)).toList)
  | whole (gs : List UInt16) : Written gs (groupsText gs).toList
  | without (front back : List UInt16) (zeros : Nat) : Written (front ++ (List.replicate zeros 0 ++ back))
      ((groupsText front).toList ++ ':' :: ':' :: (groupsText back).toList)

/-- The text of an address of version 6 has one of three forms. When a run of zeros is left out, it is one that the
search for the longest run has found among the groups. -/
theorem written_textV6 (gs : List UInt16) : Written gs (textV6 gs).toList := by
  unfold textV6
  split
  · rw [String.toList_append]
    exact .mapped _ _
  · have run : IsRun gs (longestZeros 0 (0, 0) (0, 0) gs) :=
      @isRun_longestZeros gs [] gs _ _ rfl ⟨[], rfl, fun some => absurd rfl some⟩ ⟨[], gs, rfl, rfl⟩
    obtain ⟨front, back, is, starts⟩ := run
    dsimp only
    split
    · generalize longestZeros 0 (0, 0) (0, 0) gs = run at is starts
      have first : gs.take run.1 = front := by
        rw [is, ← starts, List.take_left]
      have last : gs.drop (run.1 + run.2) = back := by
        rw [is, ← starts, ← List.append_assoc]
        exact List.drop_left' (by simp)
      rw [first, last]
      have written := Written.without front back run.2
      rw [← is] at written
      simpa using written
    · exact .whole gs

/-- No point stands among groups, so a point tells the address that stands for one of version 4 from all others. -/
theorem point_not_mem_groupsText (gs : List UInt16) : '.' ∉ (groupsText gs).toList := by
  intro here
  rcases mem_groupsText here with digit | colon
  · exact digit.not_separator.2 rfl
  · cases colon

/-- An address with a point in its text stands for one of version 4, as the two other forms consist of groups and
colons. -/
theorem Written.mapped_of_point {text : List Char} (written : Written gs text) (point : '.' ∈ text) :
    ∃ hi lo, gs = [0, 0, 0, 0, 0, 0xffff, hi, lo] ∧ text = "::ffff:".toList ++
      (textV4 (hi.toNat / 256) (hi.toNat % 256) (lo.toNat / 256) (lo.toNat % 256)).toList := by
  cases written with
  | mapped hi lo => exact ⟨hi, lo, rfl, rfl⟩
  | whole => exact absurd point (point_not_mem_groupsText _)
  | without front back zeros => simp [point_not_mem_groupsText] at point

/-- An address without a point in its text has its groups up to an end, and behind that there are those that zeros were
left out in front of. -/
theorem Written.groups_of_no_point {text : List Char} (written : Written gs text) (pointless : '.' ∉ text) :
    text = (groupsText gs).toList ++ [] ∨ ∃ front back zeros, gs = front ++ (List.replicate zeros 0 ++ back) ∧
      text = (groupsText front).toList ++ ':' :: ':' :: (groupsText back).toList := by
  cases written with
  | mapped hi lo => exact absurd (by simp [toList_textV4]) pointless
  | whole => exact .inl (List.append_nil _).symm
  | without front back zeros => exact .inr ⟨front, back, zeros, rfl, rfl⟩

/-- Groups of one number are told by what is written. The groups in front of the two colons and those behind them are
read off, and the number says how many zeros were left out between them. -/
theorem Written.eq {text : List Char} (written : Written gs text) (written' : Written gs' text)
    (number : gs.length = gs'.length) : gs = gs' := by
  by_cases point : '.' ∈ text
  · obtain ⟨hi, lo, rfl, is⟩ := written.mapped_of_point point
    obtain ⟨hi', lo', rfl, is'⟩ := written'.mapped_of_point point
    obtain ⟨a, b, c, d⟩ := textV4_injective (String.toList_inj.mp (List.append_cancel_left (is.symm.trans is')))
    have high : hi = hi' := UInt16.toNat_inj.mp (by omega)
    have low : lo = lo' := UInt16.toNat_inj.mp (by omega)
    rw [high, low]
  · have colons {rest : List Char} : IsStop (':' :: ':' :: rest) := .inr ⟨rest, rfl⟩
    have none : IsStop [] := .inl rfl
    rcases written.groups_of_no_point point with is | ⟨front, back, zeros, rfl, is⟩ <;>
      rcases written'.groups_of_no_point point with is' | ⟨front', back', zeros', rfl, is'⟩
    · exact (groupsText_eq none none (is.symm.trans is')).1
    · cases (groupsText_eq none colons (is.symm.trans is')).2
    · cases (groupsText_eq colons none (is.symm.trans is')).2
    · obtain ⟨rfl, behind⟩ := groupsText_eq colons colons (is.symm.trans is')
      have last : (groupsText back).toList = (groupsText back').toList := by simpa using behind
      obtain ⟨rfl, -⟩ := groupsText_eq none none (congrArg (· ++ []) last)
      have missing : zeros = zeros' := by simpa using number
      rw [missing]

/-- The groups of an address are written with digits, points and colons, whichever of the three forms the text has. -/
theorem Written.mem {text : List Char} (written : Written gs text) {c : Char} (here : c ∈ text) :
    IsDigit c ∨ c = '.' ∨ c = ':' := by
  have groups {gs : List UInt16} (here : c ∈ (groupsText gs).toList) : IsDigit c ∨ c = '.' ∨ c = ':' :=
    (mem_groupsText here).imp_right .inr
  cases written with
  | mapped hi lo =>
    rcases List.mem_append.mp here with first | last
    · have digits : "::ffff:".toList.all (fun c => c = ':' ∨ c = Nat.digitChar 15) = true := by decide
      rcases of_decide_eq_true (List.all_eq_true.mp digits c first) with colon | digit
      · exact .inr (.inr colon)
      · exact .inl ⟨15, by decide, digit⟩
    · exact (mem_textV4 last).imp_right .inl
  | whole => exact groups here
  | without front back zeros =>
    rcases List.mem_append.mp here with first | last
    · exact groups first
    · rcases List.mem_cons.mp last with colon | last
      · exact .inr (.inr colon)
      · rcases List.mem_cons.mp last with colon | last
        · exact .inr (.inr colon)
        · exact groups last

/-- The text of eight groups has a colon: the two for what was left out, or the one in front of the second group. An
address of version 4 has none, so the versions cannot be mistaken for each other. -/
theorem Written.colon {text : List Char} (written : Written gs text) (number : gs.length = 8) : ':' ∈ text := by
  cases written with
  | mapped hi lo => simp
  | whole =>
    obtain ⟨g, g', rest, rfl⟩ : ∃ g g' rest, gs = g :: g' :: rest := by
      match gs, number with
      | g :: g' :: rest, _ => exact ⟨g, g', rest, rfl⟩
    rw [toList_groupsText_cons]
    simp [groupsBehind]
  | without front back zeros => simp

end

/-! Addresses. -/

/-- An address of either version is written with digits, points and colons. -/
theorem mem_text {a : Address} {c : Char} (here : c ∈ a.text.toList) : IsDigit c ∨ c = '.' ∨ c = ':' := by
  cases a with
  | v4 => exact (mem_textV4 here).imp_right .inl
  | v6 groups => exact (written_textV6 groups.toList).mem here

/-- An address is not written by nothing: there is a point in the one version and a colon in the other. -/
theorem exists_mem_text (a : Address) : ∃ c, c ∈ a.text.toList := by
  cases a with
  | v4 a b c d => exact ⟨'.', by simp [text, toList_textV4]⟩
  | v6 groups => exact ⟨':', (written_textV6 groups.toList).colon groups.size_toArray⟩

/-- No two addresses have one text. A colon tells the version, and within a version the text tells the numbers or the
groups. -/
theorem text_injective {a a' : Address} (same : a.text = a'.text) : a = a' := by
  have apart (a b c d : UInt8) (groups : Vector UInt16 8) : (v4 a b c d).text ≠ (v6 groups).text := by
    intro same
    have colon : ':' ∈ (v6 groups).text.toList := (written_textV6 groups.toList).colon groups.size_toArray
    rw [← same] at colon
    rcases mem_textV4 colon with digit | point
    · exact digit.not_separator.1 rfl
    · cases point
  cases a with
  | v4 a b c d =>
    cases a' with
    | v4 a' b' c' d' =>
      obtain ⟨first, second, third, fourth⟩ := textV4_injective same
      rw [UInt8.toNat_inj.mp first, UInt8.toNat_inj.mp second, UInt8.toNat_inj.mp third, UInt8.toNat_inj.mp fourth]
    | v6 groups => exact absurd same (apart a b c d groups)
  | v6 groups =>
    cases a' with
    | v4 a b c d => exact absurd same.symm (apart a b c d groups)
    | v6 groups' =>
      have written : Written groups'.toList (textV6 groups.toList).toList := by
        rw [show textV6 groups.toList = textV6 groups'.toList from same]
        exact written_textV6 _
      have number : groups.toList.length = groups'.toList.length := by simp
      rw [Vector.toList_inj.mp ((written_textV6 groups.toList).eq written number)]

end Address

end Turnstile
