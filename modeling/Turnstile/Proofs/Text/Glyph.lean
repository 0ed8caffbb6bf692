import Mathlib.Algebra.Ring.Nat
import Mathlib.Tactic.SplitIfs
import Turnstile.Key
import Turnstile.Proofs.Http.Headers
import Turnstile.Text.Glyph

/-!
Octets that are read as a key.

An octet of ASCII is read as the character of its code, whatever comes behind it. Any other octet begins a character beyond
ASCII or a stray piece, and neither may stand in a key. So reading makes no key of anything else than a run of printable ASCII
without the space, and of such a run it loses nothing: octets are accepted exactly if they are one that is neither empty nor
too long, and an accepted key has these very octets.
-/

namespace Turnstile

namespace Text

namespace Glyph

variable {b : UInt8} {rest octets : List UInt8}

/-- A code beyond ASCII makes no character of a key, and neither does a code that no character has, which is shown as
the first of all characters. -/
theorem isKeyChar_ofNat {code : Nat} (large : 128 ≤ code) : isKeyChar (Char.ofNat code) = false := by
  by_cases valid : code.isValidChar
  · have made : Char.ofNat code = Char.ofNatAux code valid := dif_pos valid
    have is : (Char.ofNat code).toNat = code := by
      rw [made]
      rfl
    have above : ¬ code ≤ 0x7e := by omega
    simp [isKeyChar, is, above]
  · have none : Char.ofNat code = '\x00' := dif_neg valid
    rw [none]
    rfl

/-- What is shown for octets that make no character may not stand in a key. -/
theorem isKeyChar_stray (octets : List UInt8) : isKeyChar (stray octets).shown = false := isKeyChar_ofNat (by decide)

/-- Bits that the owed followers shift beyond ASCII make no character of a key, whether the followers come or not. -/
theorem isKeyChar_follow {taken : List UInt8} {bits owed : Nat} {low high : UInt8} (large : 128 ≤ bits * 64 ^ owed) :
    isKeyChar (follow taken bits owed low high rest).1.shown = false := by
  induction owed generalizing taken bits low high rest with
  | zero =>
    unfold follow
    exact isKeyChar_ofNat (by simpa using large)
  | succ owed inductionHypothesis =>
    cases rest with
    | nil => exact isKeyChar_stray _
    | cons b rest =>
      unfold follow
      split
      · apply inductionHypothesis
        calc 128 ≤ bits * 64 ^ (owed + 1) := large
          _ = bits * 64 * 64 ^ owed := by rw [Nat.pow_succ', Nat.mul_assoc]
          _ ≤ (bits * 64 + b.toNat % 64) * 64 ^ owed := Nat.mul_le_mul_right _ (Nat.le_add_right _ _)
      · exact isKeyChar_stray _

/-- A first octet owes a follower, and the bits of both are shifted beyond ASCII by the followers that are still owed: where
the first octet has no bits of its own, the range of the next one sees to that. -/
theorem lead_large {owed : Nat} {low high : UInt8} (leads : lead b = some (owed, low, high)) :
    ∃ more, owed = more + 1 ∧ ∀ c, low ≤ c → c ≤ high → 128 ≤ (leadBits b owed * 64 + c.toNat % 64) * 64 ^ more := by
  unfold lead at leads
  simp only [UInt8.le_iff_toNat_le, ← UInt8.toNat_inj] at leads
  split_ifs at leads <;> cases leads <;> refine ⟨_, rfl, fun c above below => ?_⟩
  all_goals
    simp only [UInt8.le_iff_toNat_le] at above below
    simp [leadBits] at *
    omega

/-- An octet beyond ASCII begins nothing that may stand in a key: it leads to a character beyond ASCII, or it is stray. -/
theorem isKeyChar_first (beyond : ¬ b < 0x80) : isKeyChar (first b rest).1.shown = false := by
  unfold first
  rw [if_neg beyond]
  cases leads : lead b with
  | none => exact isKeyChar_stray _
  | some range =>
    obtain ⟨owed, low, high⟩ := range
    obtain ⟨more, rfl, large⟩ := lead_large leads
    cases rest with
    | nil => exact isKeyChar_stray _
    | cons c rest =>
      change isKeyChar (follow [b] (leadBits b (more + 1)) (more + 1) low high (c :: rest)).1.shown = false
      unfold follow
      split
      · rename_i within
        exact isKeyChar_follow (large c within.1 within.2)
      · exact isKeyChar_stray _

/-- The glyphs that are done stand in front of those that are still to come. -/
theorem ofOctetsFrom_done (done : List Glyph) (fuel : Nat) (octets : List UInt8) :
    ofOctetsFrom done fuel octets = done.reverse ++ ofOctetsFrom [] fuel octets := by
  induction fuel generalizing done octets with
  | zero => simp [ofOctetsFrom]
  | succ fuel inductionHypothesis =>
    cases octets with
    | nil => simp [ofOctetsFrom]
    | cons b rest =>
      unfold ofOctetsFrom
      dsimp only
      rw [inductionHypothesis, inductionHypothesis [_], List.reverse_cons, List.append_assoc]
      rfl

/-- The first glyph and the glyphs of what it leaves are the glyphs of all. -/
theorem ofOctetsFrom_cons (fuel : Nat) (b : UInt8) (rest : List UInt8) :
    ofOctetsFrom [] (fuel + 1) (b :: rest) = (first b rest).1 :: ofOctetsFrom [] fuel (first b rest).2 :=
  ofOctetsFrom_done [(first b rest).1] fuel (first b rest).2

end Glyph

/-- Octets that a key is made of: printable ASCII without the space. -/
def IsKeyOctet (b : UInt8) : Prop := 0x21 ≤ b ∧ b ≤ 0x7e

/-- An octet that may stand in a key is ASCII. -/
theorem IsKeyOctet.ascii {b : UInt8} (printable : IsKeyOctet b) : b < 0x80 := by
  obtain ⟨-, small⟩ := printable
  simp only [UInt8.le_iff_toNat_le, UInt8.lt_iff_toNat_lt] at small ⊢
  exact Nat.lt_of_le_of_lt small (by decide)

/-- The character of an octet of ASCII may stand in a key exactly if the octet may. -/
theorem isKeyChar_ascii {b : UInt8} (ascii : b < 0x80) : isKeyChar (Char.ofNat b.toNat) = true ↔ IsKeyOctet b := by
  have each : ∀ n < 128, isKeyChar (Char.ofNat n) = (0x21 ≤ n && n ≤ 0x7e : Bool) := by decide
  rw [each b.toNat ascii]
  simp [IsKeyOctet, UInt8.le_iff_toNat_le]

/-- All that is shown may stand in a key exactly if all octets may, and then it is their characters. The first glyph
alone decides whether octets beyond ASCII are refused, so none is followed to its end. -/
theorem shown_of_octets {octets : List UInt8} {fuel : Nat} (enough : octets.length ≤ fuel) :
    ((∀ g ∈ Glyph.ofOctetsFrom [] fuel octets, isKeyChar g.shown = true) ↔ ∀ b ∈ octets, IsKeyOctet b) ∧
      ((∀ b ∈ octets, IsKeyOctet b) →
        Glyph.ofOctetsFrom [] fuel octets = octets.map fun b => .char (Char.ofNat b.toNat)) := by
  induction octets generalizing fuel with
  | nil => cases fuel <;> simp [Glyph.ofOctetsFrom]
  | cons b rest inductionHypothesis =>
    cases fuel with
    | zero => cases enough
    | succ fuel =>
      rw [Glyph.ofOctetsFrom_cons]
      by_cases ascii : b < 0x80
      · have read : Glyph.first b rest = (.char (Char.ofNat b.toNat), rest) := if_pos ascii
        obtain ⟨exact', same⟩ := inductionHypothesis (Nat.le_of_succ_le_succ enough)
        rw [read]
        simp only [List.forall_mem_cons]
        refine ⟨and_congr (isKeyChar_ascii ascii) exact', fun printable => ?_⟩
        rw [same printable.2, List.map_cons]
      · -- What the followers are does not matter: the first glyph alone is refused.
        have broken : ¬ ∀ c ∈ b :: rest, IsKeyOctet c := fun printable => ascii (printable b List.mem_cons_self).ascii
        refine ⟨iff_of_false (fun shown => ?_) broken, fun printable => absurd printable broken⟩
        have refused := shown _ List.mem_cons_self
        rw [Glyph.isKeyChar_first ascii] at refused
        cases refused

/-- Reading loses nothing of what may be a key, for these octets are read one by one. -/
theorem octetsOf_lossy {octets : List UInt8} (printable : ∀ b ∈ octets, IsKeyOctet b) :
    Http.octetsOf (lossy octets) = octets := by
  have textual : octets.all Http.isTextOctet = true := by
    refine List.all_eq_true.mpr fun b here => ?_
    obtain ⟨low, high⟩ := printable b here
    simp only [UInt8.le_iff_toNat_le] at low high
    simp only [Http.isTextOctet, Bool.or_eq_true, Bool.and_eq_true, decide_eq_true_eq, UInt8.le_iff_toNat_le,
      UInt8.lt_iff_toNat_lt]
    exact .inl ⟨Nat.le_trans (by decide) low, Nat.lt_of_le_of_lt high (by decide)⟩
  have read := (shown_of_octets (Nat.le_refl octets.length)).2 printable
  unfold lossy Glyph.ofOctets
  rw [read, List.map_map]
  exact Http.text_octets textual

/-- The text that is read may stand in a key exactly if all its octets may. -/
theorem all_isKeyChar_lossy {octets : List UInt8} :
    (lossy octets).toList.all isKeyChar = true ↔ ∀ b ∈ octets, IsKeyOctet b := by
  rw [← (shown_of_octets (Nat.le_refl octets.length)).1]
  simp [lossy, Glyph.ofOctets]

/-- The text that is read is empty exactly if there are no octets, as every octet shows something or is part of what is
shown. -/
theorem lossy_isEmpty_iff {octets : List UInt8} : (lossy octets).isEmpty = true ↔ octets = [] := by
  constructor
  · intro empty
    cases octets with
    | nil => rfl
    | cons b rest =>
      have none : lossy (b :: rest) = "" := String.isEmpty_iff.mp empty
      have chars := congrArg String.toList none
      rw [lossy, Glyph.ofOctets, List.length_cons, Glyph.ofOctetsFrom_cons, String.toList_ofList] at chars
      cases chars
  · rintro rfl
    rfl

end Text

/-- Octets that are taken as a key: one to 256, and printable ASCII without the space. -/
structure IsKeyText (octets : List UInt8) : Prop where
  some : 1 ≤ octets.length
  short : octets.length ≤ 256
  printable : ∀ b ∈ octets, 0x21 ≤ b ∧ b ≤ 0x7e

/-- Octets that are read as a key are in order exactly if they are taken as one. Where all are printable the length of
the text is their number, and elsewhere some character is refused. -/
theorem keyFault?_lossy_eq_none_iff {octets : List UInt8} : keyFault? (Text.lossy octets) = none ↔ IsKeyText octets := by
  have size : (∀ b ∈ octets, Text.IsKeyOctet b) → (Text.lossy octets).utf8ByteSize = octets.length := by
    intro printable
    exact congrArg List.length (Text.octetsOf_lossy printable)
  unfold keyFault?
  constructor
  · intro none
    split_ifs at none with empty long forbidden
    have printable : ∀ b ∈ octets, Text.IsKeyOctet b := Text.all_isKeyChar_lossy.mp (by simpa using forbidden)
    rw [size printable] at long
    have some : 1 ≤ octets.length := by
      cases octets with
      | nil => exact absurd (Text.lossy_isEmpty_iff.mpr rfl) empty
      | cons b rest => exact Nat.le_add_left 1 rest.length
    exact { some := some, short := Nat.not_lt.mp long, printable := printable }
  · rintro ⟨some, short, printable⟩
    have short : octets.length ≤ maxKeyLength := short
    have nonempty : octets ≠ [] := by
      rintro rfl
      cases some
    rw [if_neg fun empty => nonempty (Text.lossy_isEmpty_iff.mp empty), size printable, if_neg (Nat.not_lt.mpr short),
      Text.all_isKeyChar_lossy.mpr printable]
    rfl

/-- What is taken as a key is text, with nothing stray in it. -/
theorem IsKeyText.ofOctets?_eq {octets : List UInt8} (text : IsKeyText octets) :
    Text.ofOctets? octets = Option.some (Text.lossy octets) := by
  have read := (Text.shown_of_octets (Nat.le_refl octets.length)).2 text.printable
  have whole : (Text.Glyph.ofOctets octets).all Text.Glyph.isChar = true := by
    rw [Text.Glyph.ofOctets, read]
    simp [Text.Glyph.isChar]
  exact if_pos whole

/-- A key is missing exactly if there are no octets. -/
theorem keyFault?_lossy_eq_missing_iff {octets : List UInt8} :
    keyFault? (Text.lossy octets) = some .missing ↔ octets = [] := by
  rw [← Text.lossy_isEmpty_iff]
  unfold keyFault?
  split_ifs with empty long forbidden <;> simp [*]

end Turnstile
