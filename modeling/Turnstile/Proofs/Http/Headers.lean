import Turnstile.Http.Header

/-!
Header fields by name.

What a receiver can tell of header fields is, for each name, the values of that name in their order. Setting, adding,
removing and grouping fields are described by what they do to these values. A value that shows as text goes to its text
and back unchanged; a value with an octet beyond ASCII has no text.
-/

namespace Turnstile.Http

/-- The octets of ASCII text are its characters, one octet each. -/
theorem octetsOf_ascii {chars : List Char} (ascii : ∀ c ∈ chars, c.toNat < 128) :
    octetsOf (String.ofList chars) = chars.map Char.toUInt8 := by
  have encoded : chars.utf8Encode = (chars.map Char.toUInt8).toByteArray := by
    induction chars with
    | nil => rfl
    | cons c rest inductionHypothesis =>
      have single : c.utf8Size = 1 := by
        rw [Char.utf8Size_eq_one_iff, UInt32.le_iff_toNat_le]
        exact Nat.le_of_lt_succ (ascii c List.mem_cons_self)
      rw [List.utf8Encode_cons, List.utf8Encode_singleton, String.utf8EncodeChar_eq_singleton single,
        inductionHypothesis fun d here => ascii d (List.mem_cons_of_mem _ here), ← List.toByteArray_append]
      rfl
  simp [octetsOf, encoded]

/-- A field that may stand in a header: its name is a name in lower case, its value has no controls but the tab. -/
structure Field.Sound (f : Field) : Prop where
  name : fieldName? f.name = some f.name
  value : f.value.all isValueOctet = true

instance (f : Field) : Decidable f.Sound :=
  decidable_of_iff (fieldName? f.name = some f.name ∧ f.value.all isValueOctet = true)
    ⟨fun ⟨name, value⟩ => ⟨name, value⟩, fun sound => ⟨sound.name, sound.value⟩⟩

/-- The value shows as text. -/
def Field.isTextual (f : Field) : Bool := f.value.all isTextOctet

/-- A text octet as a character is that octet again, as such octets are below 128. -/
theorem text_octets {value : List UInt8} (textual : value.all isTextOctet = true) :
    octetsOf (String.ofList (value.map fun b => Char.ofNat b.toNat)) = value := by
  have each (b : UInt8) (shows : isTextOctet b = true) :
      (Char.ofNat b.toNat).toNat < 128 ∧ (Char.ofNat b.toNat).toUInt8 = b := by
    have ascii : ∀ n < 128, (Char.ofNat n).toNat < 128 ∧ (Char.ofNat n).toUInt8 = UInt8.ofNat n := by decide
    have small : b.toNat < 128 := by
      simp only [isTextOctet, Bool.or_eq_true, Bool.and_eq_true, decide_eq_true_eq, UInt8.lt_iff_toNat_lt,
        ← UInt8.toNat_inj] at shows
      have limits : (127 : UInt8).toNat = 127 ∧ (9 : UInt8).toNat = 9 := by decide
      omega
    simpa only [UInt8.ofNat_toNat] using ascii b.toNat small
  have all : ∀ b ∈ value, isTextOctet b = true := List.all_eq_true.mp textual
  rw [octetsOf_ascii]
  · rw [List.map_map]
    refine Eq.trans (List.map_congr_left fun b here => (each b (all b here)).2) (List.map_id value)
  · intro c here
    obtain ⟨b, there, rfl⟩ := List.mem_map.mp here
    exact (each b (all b there)).1

/-- A field is made of its text again, if it has one. A sound field has a name that is written in small letters already
and a value of octets that fields allow. -/
theorem Field.Sound.again {f : Field} (sound : f.Sound) :
    (valueText? f.value).bind (Field.ofText? f.name) = if f.isTextual then some f else none := by
  unfold valueText? Field.isTextual
  split
  · rename_i textual
    rw [Option.bind_some]
    simp only [Field.ofText?, sound.name, text_octets textual, Option.bind_eq_bind, Option.bind_some, sound.value, if_true]
  · rfl

namespace Headers

/-- The values of the fields of one name, in their order. -/
def values (h : Headers) (name : String) : List (List UInt8) := (h.fields.filter (·.name == name)).map (·.value)

/-- Every field may stand in a header. -/
def Sound (h : Headers) : Prop := ∀ f ∈ h.fields, f.Sound

instance (h : Headers) : Decidable h.Sound := inferInstanceAs (Decidable (∀ f ∈ h.fields, f.Sound))

/-- A field at the end adds its value to those of its own name only. -/
theorem values_append (h : Headers) (f : Field) (name : String) :
    (h.append f).values name = h.values name ++ if f.name = name then [f.value] else [] := by
  by_cases here : f.name = name <;> simp [values, append, List.filter_append, here]

/-- Removing a name takes all of its values away and leaves those of other names. -/
theorem values_remove (h : Headers) (removed name : String) :
    (h.remove removed).values name = if name = removed then [] else h.values name := by
  split
  · rename_i same
    simp [values, remove, List.filter_filter, same]
  · rename_i different
    simp only [values, remove, List.filter_filter]
    congr 1
    apply List.filter_congr
    intro f _
    by_cases here : f.name = name
    · simp [here, different]
    · simp [here]

/-- Setting a name leaves the one value that was set, since it is removed before it is added. -/
theorem values_set (h : Headers) (set value name : String) :
    (h.set set value).values name = if name = set then [octetsOf value] else h.values name := by
  rw [Headers.set, values_append, values_remove]
  by_cases here : name = set
  · simp [here]
  · simp [here, Ne.symm here]

/-- Grouping keeps the fields of each name in their order. The fields of one name are taken out together, in front of
all others, and so what is left for another name is what was there. -/
theorem filter_groupedFrom (fuel : Nat) (fields : List Field) (name : String) :
    (groupedFrom fuel fields).filter (·.name == name) = fields.filter (·.name == name) := by
  induction fuel generalizing fields with
  | zero => rfl
  | succ fuel inductionHypothesis =>
    cases fields with
    | nil => rfl
    | cons f rest =>
      rw [groupedFrom, List.filter_append, inductionHypothesis, List.filter_cons, List.filter_cons,
        List.filter_filter, List.filter_filter]
      by_cases here : f.name = name
      · -- All fields of the name stand together, and none of them is left for later.
        subst here
        have none : rest.filter (fun g => g.name == f.name && g.name != f.name) = [] := by
          simp
        simp [none]
      · have others : rest.filter (fun g => g.name == name && g.name != f.name) = rest.filter (·.name == name) := by
          apply List.filter_congr
          intro g _
          by_cases there : g.name = name
          · simp [there, Ne.symm here]
          · simp [there]
        have none : rest.filter (fun g => g.name == name && g.name == f.name) = [] := by
          apply List.filter_eq_nil_iff.mpr
          intro g _ both
          simp only [Bool.and_eq_true, beq_iff_eq] at both
          exact here (both.2.symm.trans both.1)
        simp [here, others, none]

/-- So the values of every name are the same after grouping, in the same order. -/
theorem values_grouped (h : Headers) (name : String) : (⟨h.grouped⟩ : Headers).values name = h.values name :=
  congrArg (List.map Field.value) (filter_groupedFrom h.fields.length h.fields name)

/-- Grouping adds no field: whatever comes out is among the fields of its own name, and those are the ones that went in. -/
theorem mem_groupedFrom {fuel : Nat} {fields : List Field} {f : Field} (here : f ∈ groupedFrom fuel fields) :
    f ∈ fields := by
  have named : f ∈ (groupedFrom fuel fields).filter (·.name == f.name) := List.mem_filter.mpr ⟨here, by simp⟩
  rw [filter_groupedFrom] at named
  exact (List.mem_filter.mp named).1

end Headers

end Turnstile.Http
