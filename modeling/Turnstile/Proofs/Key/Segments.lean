import Mathlib.Data.List.Basic
import Turnstile.Policy

/-!
Bucket keys can be taken apart again.

The three segments of a bucket key come from texts that clients choose, and a colon stands between them. No segment is empty
and none holds a colon, so a key has one way only to be read, and it tells the segments that it was made of. A segment in its
normal form stays as it is when it is brought into that form again.
-/

namespace Turnstile

/-! Characters of segments. -/

/-- What stands for itself in a segment is no blank. Its code lies between those of the hyphen and of the letter `z`,
and there is no blank in that range, so trimming leaves a segment alone. -/
theorem isBlank_of_segmentChar {c : Char} (stands : isSegmentChar c = true) : Text.isBlank c = false := by
  have code : 0x2d ≤ c.toNat ∧ c.toNat ≤ 0x7a := by
    unfold isSegmentChar Char.isAlphanum Char.isAlpha Char.isUpper Char.isLower Char.isDigit at stands
    simp only [Bool.or_eq_true, Bool.and_eq_true, decide_eq_true_eq, beq_iff_eq, UInt32.le_iff_toNat_le, ge_iff_le] at stands
    rcases stands with ((((⟨low, high⟩ | ⟨low, high⟩) | ⟨low, high⟩) | rfl) | rfl) | rfl
    · exact ⟨Nat.le_trans (by decide) low, Nat.le_trans high (by decide)⟩
    · exact ⟨Nat.le_trans (by decide) low, Nat.le_trans high (by decide)⟩
    · exact ⟨Nat.le_trans (by decide) low, Nat.le_trans high (by decide)⟩
    all_goals decide
  unfold Text.isBlank
  grind

/-- A character that has been made an upper-case letter stays as it is. A lower-case letter lands thirty-two codes below
itself, where no lower-case letter is. -/
theorem toUpper_toUpper (c : Char) : c.toUpper.toUpper = c.toUpper := by
  by_cases lower : c.val ≥ 'a'.val ∧ c.val ≤ 'z'.val
  · have upper : c.toUpper.val = c.val + ('A'.val - 'a'.val) := by
      unfold Char.toUpper
      rw [dif_pos lower]
    have codes : 97 ≤ c.val.toNat ∧ c.val.toNat ≤ 122 := lower
    have code : c.toUpper.val.toNat = c.val.toNat - 32 := by
      rw [upper, UInt32.toNat_add, show ('A'.val - 'a'.val).toNat = 2 ^ 32 - 32 from rfl]
      omega
    have stays : ¬ (c.toUpper.val ≥ 'a'.val ∧ c.toUpper.val ≤ 'z'.val) := by
      rintro ⟨low, -⟩
      have low' : 97 ≤ c.toUpper.val.toNat := low
      omega
    exact dif_neg stays
  · have same : c.toUpper = c := dif_neg lower
    rw [same, same]

namespace Text

variable {cs : List Char}

/-- Trimming adds nothing. Both ends are cut off by dropping characters, and what is left is a part of what was there. -/
theorem mem_of_mem_trimChars {c : Char} (here : c ∈ trimChars cs) : c ∈ cs := by
  unfold trimChars at here
  have within := (List.dropWhile_sublist isBlank).mem (List.mem_reverse.mp here)
  exact (List.dropWhile_sublist isBlank).mem (List.mem_reverse.mp within)

/-- Text without blanks has none at its ends, so trimming finds nothing to drop on either side. -/
theorem trimChars_of_unblank (unblank : ∀ c ∈ cs, isBlank c = false) : trimChars cs = cs := by
  have kept {ds : List Char} (unblank : ∀ c ∈ ds, isBlank c = false) : ds.dropWhile isBlank = ds := by
    cases ds with
    | nil => rfl
    | cons c rest => exact List.dropWhile_cons_of_neg (by simp [unblank c List.mem_cons_self])
  unfold trimChars
  rw [kept unblank, kept fun c here => unblank c (List.mem_reverse.mp here), List.reverse_reverse]

end Text

/-! Segments. -/

section

variable {s : String}

/-- The characters of a segment: an underscore, or one of the text that stands for itself. The underscore is written for
an empty text and for every character that does not. -/
theorem mem_segment {c : Char} (here : c ∈ (segment s).toList) : c = '_' ∨ (c ∈ s.toList ∧ isSegmentChar c = true) := by
  unfold segment at here
  split at here
  · exact .inl (by simpa using here)
  · rw [String.toList_ofList] at here
    obtain ⟨d, among, rfl⟩ := List.mem_map.mp here
    split
    · rename_i stands
      exact .inr ⟨Text.mem_of_mem_trimChars among, stands⟩
    · exact .inl rfl

/-- Every character of a segment stands for itself, since the underscore does too. This is what makes a segment its own
normal form. -/
theorem segment_chars (s : String) : ∀ c ∈ (segment s).toList, isSegmentChar c = true := by
  intro c here
  rcases mem_segment here with rfl | ⟨-, stands⟩
  · rfl
  · exact stands

/-- No segment is empty. Text of which nothing is left becomes an underscore, and each character of other text becomes
one character. -/
theorem segment_ne_empty (s : String) : segment s ≠ "" := by
  intro empty
  have none := congrArg String.toList empty
  unfold segment at none
  split at none
  · exact absurd none (by decide)
  · rename_i cs some
    rw [String.toList_ofList] at none
    exact some (List.map_eq_nil_iff.mp none)

/-- What has the form of a segment is its own segment. It holds no blank that could be trimmed and no character that
would be replaced. -/
theorem segment_of_chars (some : s ≠ "") (all : ∀ c ∈ s.toList, isSegmentChar c = true) : segment s = s := by
  have trimmed : Text.trimChars s.toList = s.toList :=
    Text.trimChars_of_unblank fun c here => isBlank_of_segmentChar (all c here)
  have kept : s.toList.map (fun c => if isSegmentChar c then c else '_') = s.toList := by
    rw [List.map_congr_left fun c here => if_pos (all c here), List.map_id']
  unfold segment
  rw [trimmed]
  split
  · rename_i none
    exact absurd (String.toList_inj.mp none) some
  · rw [kept, String.ofList_toList]

/-- The normal form of a segment is the segment itself, as a segment is never empty and all its characters stand for
themselves. -/
theorem segment_segment (s : String) : segment (segment s) = segment s :=
  segment_of_chars (segment_ne_empty s) (segment_chars s)

/-- No colon is left in a segment, whatever the client sent. The colons of a bucket key are therefore its separators. -/
theorem colon_not_mem_segment (s : String) : ':' ∉ (segment s).toList := by
  intro here
  exact absurd (segment_chars s ':' here) (by decide)

end

/-- A path in its normal form stays as it is: no slash is left to be taken out of it, and what remains is a segment. -/
theorem endpointSegment_endpointSegment (path : String) :
    endpointSegment (endpointSegment path) = endpointSegment path := by
  have slashless : (endpointSegment path).toList.filter (· != '/') = (endpointSegment path).toList := by
    apply List.filter_eq_self.mpr
    intro c here
    rw [bne_iff_ne]
    rintro rfl
    exact absurd (segment_chars _ '/' here) (by decide)
  calc endpointSegment (endpointSegment path)
      = segment (String.ofList ((endpointSegment path).toList.filter (· != '/'))) := rfl
    _ = segment (endpointSegment path) := by rw [slashless, String.ofList_toList]
    _ = endpointSegment path := segment_segment _

/-- A method in its normal form stays as it is: no letter is left to be made greater. An underscore has no greater
letter, and every other character of the segment has been made greater before. -/
theorem methodSegment_methodSegment (method : String) : methodSegment (methodSegment method) = methodSegment method := by
  have upper : (methodSegment method).toList.map Char.toUpper = (methodSegment method).toList := by
    have each : ∀ c ∈ (methodSegment method).toList, c.toUpper = c := by
      intro c here
      rcases mem_segment here with rfl | ⟨among, -⟩
      · rfl
      · rw [String.toList_ofList] at among
        obtain ⟨d, -, rfl⟩ := List.mem_map.mp among
        exact toUpper_toUpper d
    rw [List.map_congr_left each, List.map_id']
  calc methodSegment (methodSegment method)
      = segment (String.ofList ((methodSegment method).toList.map Char.toUpper)) := rfl
    _ = segment (methodSegment method) := by rw [upper, String.ofList_toList]
    _ = methodSegment method := segment_segment _

/-! Keys. -/

/-- Where a separator does not occur ahead of itself, text around it has one reading. Both readings are followed
character by character, and neither can reach the separator before the other does. -/
theorem parts_of_separated {a b a' b' : List Char} {separator : Char} (ahead : separator ∉ a) (ahead' : separator ∉ a')
    (same : a ++ separator :: b = a' ++ separator :: b') : a = a' ∧ b = b' := by
  induction a generalizing a' with
  | nil =>
    cases a' with
    | nil => exact ⟨rfl, (List.cons.inj same).2⟩
    | cons c rest => exact absurd (List.mem_cons.mpr (.inl (List.cons.inj same).1)) ahead'
  | cons c rest inductionHypothesis =>
    cases a' with
    | nil => exact absurd (List.mem_cons.mpr (.inl (List.cons.inj same).1.symm)) ahead
    | cons c' rest' =>
      obtain ⟨rfl, onward⟩ := List.cons.inj same
      obtain ⟨rfl, rfl⟩ := inductionHypothesis (fun here => ahead (List.mem_cons_of_mem _ here))
        (fun here => ahead' (List.mem_cons_of_mem _ here)) onward
      exact ⟨rfl, rfl⟩

/-- A bucket key tells the segments that it was made of, and nothing more. As no segment holds a colon, the first two
colons of the text separate the segments. -/
theorem BucketKey.of_eq_iff {client path method client' path' method' : String} :
    BucketKey.of client path method = BucketKey.of client' path' method' ↔
      segment client = segment client' ∧ endpointSegment path = endpointSegment path' ∧
        methodSegment method = methodSegment method' := by
  constructor
  · intro same
    have chars : (segment client).toList ++ ':' :: ((endpointSegment path).toList ++ ':' :: (methodSegment method).toList) =
        (segment client').toList ++ ':' :: ((endpointSegment path').toList ++ ':' :: (methodSegment method').toList) := by
      simpa [BucketKey.of] using congrArg (String.toList ∘ BucketKey.text) same
    obtain ⟨clients, onward⟩ := parts_of_separated (colon_not_mem_segment _) (colon_not_mem_segment _) chars
    obtain ⟨endpoints, methods⟩ := parts_of_separated (colon_not_mem_segment _) (colon_not_mem_segment _) onward
    exact ⟨String.toList_inj.mp clients, String.toList_inj.mp endpoints, String.toList_inj.mp methods⟩
  · rintro ⟨clients, endpoints, methods⟩
    unfold BucketKey.of
    rw [clients, endpoints, methods]

/-- One bucket is on one route, for the name of the route is written with the last two segments of the bucket's key. -/
theorem BucketKey.route_eq {client path method client' path' method' : String}
    (same : BucketKey.of client path method = BucketKey.of client' path' method') :
    RouteName.of path method = RouteName.of path' method' := by
  obtain ⟨-, endpoints, methods⟩ := of_eq_iff.mp same
  unfold RouteName.of
  rw [endpoints, methods]

/-- Requests that are charged to one bucket are under one policy, whoever sends them. The policy is looked up by the
name of the route, and that is the same for both. -/
theorem Policies.resolve_eq (t : Policies) {client path method client' path' method' : String}
    (same : BucketKey.of client path method = BucketKey.of client' path' method') :
    t.resolve path method = t.resolve path' method' := by
  unfold resolve
  rw [BucketKey.route_eq same]

end Turnstile
