import Turnstile.Table

/-!
What a table shows after each of its operations.

`find?` is the whole view of a table. Setting and erasing change it at one key and nowhere else. Keeping only
the values that pass filters the view, but only where each key occurs once: a later pair of the same key would
come to light when an earlier one is dropped. Every operation keeps keys apart.
-/

namespace Turnstile.Table

variable {κ β : Type}

/-- Each key occurs once. -/
def Distinct (t : Table κ β) : Prop := (t.pairs.map (·.1)).Nodup

/-- In an empty table each key occurs once, as none occurs. -/
theorem distinct_empty : (empty : Table κ β).Distinct := List.nodup_nil

/-- Keeping some values keeps keys apart, for what is kept is a part of what was there. -/
theorem distinct_keep (t : Table κ β) (distinct : t.Distinct) (passes : β → Bool) :
    (t.keep passes).Distinct :=
  List.Nodup.sublist (List.Sublist.map _ List.filter_sublist) distinct

/-- Where keys are apart, no pair occurs twice either, since equal pairs would have equal keys. -/
theorem nodup_pairs {t : Table κ β} (distinct : t.Distinct) : t.pairs.Nodup :=
  List.Pairwise.of_map (·.1) (fun _ _ apart same => apart (congrArg (·.1) same)) distinct

variable [DecidableEq κ]

/-- The view of a table goes through its pairs in order: the first pair of the key shows, and without one it is the rest
that shows. -/
theorem find?_cons (k other : κ) (v : β) (rest : List (κ × β)) :
    find? ⟨(other, v) :: rest⟩ k = if other = k then some v else find? ⟨rest⟩ k := by
  by_cases same : other = k <;> simp [find?, same]

/-- A key that no pair has shows nothing, as every pair is passed over. -/
theorem find?_eq_none_of_absent (k : κ) (pairs : List (κ × β))
    (absent : k ∉ pairs.map (·.1)) : find? ⟨pairs⟩ k = none := by
  induction pairs with
  | nil => rfl
  | cons pair rest inductionHypothesis =>
    obtain ⟨other, v⟩ := pair
    simp only [List.map_cons, List.mem_cons, not_or] at absent
    rw [find?_cons, if_neg (fun same => absent.1 same.symm), inductionHypothesis absent.2]

/-- Replacing the value at a key in place changes the view there, if the key is in the table at all. The pairs of other
keys stay where they are. -/
theorem find?_replace (k other : κ) (v : β) (pairs : List (κ × β)) :
    find? ⟨pairs.map fun p => if p.1 = k then (k, v) else p⟩ other =
      if other = k then (find? ⟨pairs⟩ k).map (fun _ => v) else find? ⟨pairs⟩ other := by
  induction pairs with
  | nil => simp [find?]
  | cons pair rest inductionHypothesis =>
    obtain ⟨first, w⟩ := pair
    by_cases here : first = k
    · subst here
      simp only [List.map_cons, if_true, find?_cons, inductionHypothesis]
      by_cases same : other = first
      · simp [same]
      · simp [same, Ne.symm same]
    · simp only [List.map_cons, here, if_false, find?_cons, inductionHypothesis]
      by_cases same : other = k
      · simp [same, here]
      · simp [same]

/-- A pair that comes last shows only at a key that was free, for the pairs ahead of it are looked at first. -/
theorem find?_append (k other : κ) (v : β) (pairs : List (κ × β)) :
    find? ⟨pairs ++ [(k, v)]⟩ other =
      (find? ⟨pairs⟩ other).or (if other = k then some v else none) := by
  induction pairs with
  | nil => by_cases same : other = k <;> simp [find?, same, eq_comm]
  | cons pair rest inductionHypothesis =>
    obtain ⟨first, w⟩ := pair
    simp only [List.cons_append, find?_cons, inductionHypothesis]
    by_cases here : first = other <;> simp [here]

/-- Whether a key is in the table is what its view tells. Both go through the pairs and stop at the first one of the
key. -/
theorem any_iff_isSome (k : κ) (pairs : List (κ × β)) :
    pairs.any (·.1 = k) = (find? ⟨pairs⟩ k).isSome := by
  induction pairs with
  | nil => rfl
  | cons pair rest inductionHypothesis =>
    obtain ⟨first, w⟩ := pair
    rw [find?_cons, List.any_cons, inductionHypothesis]
    by_cases here : first = k <;> simp [here]

/-- What is found is there: the view of a key is the value of a pair that has this key. -/
theorem mem_of_find? {t : Table κ β} {k : κ} {v : β} (found : t.find? k = some v) : (k, v) ∈ t.pairs := by
  obtain ⟨pair, first, rfl⟩ := Option.map_eq_some_iff.mp found
  have same : pair.1 = k := by simpa using List.find?_some first
  exact same ▸ List.mem_of_find?_eq_some first

/-- Setting changes the view at one key. A known key has its value replaced in place, and a new one comes last, where it
was free. -/
theorem find?_insert (t : Table κ β) (k other : κ) (v : β) :
    (t.insert k v).find? other = if other = k then some v else t.find? other := by
  obtain ⟨pairs⟩ := t
  unfold insert
  by_cases known : pairs.any (·.1 = k) = true
  · rw [if_pos known, find?_replace]
    rw [any_iff_isSome] at known
    obtain ⟨old, found⟩ := Option.isSome_iff_exists.mp known
    simp [found]
  · rw [if_neg known, find?_append]
    rw [any_iff_isSome, Option.not_isSome_iff_eq_none] at known
    by_cases same : other = k
    · simp [same, known]
    · simp [same]

/-- Erasing changes the view at one key. All pairs of the key go, so no later one comes to light. -/
theorem find?_erase (t : Table κ β) (k other : κ) :
    (t.erase k).find? other = if other = k then none else t.find? other := by
  obtain ⟨pairs⟩ := t
  unfold erase
  induction pairs with
  | nil => simp [find?]
  | cons pair rest inductionHypothesis =>
    obtain ⟨first, w⟩ := pair
    by_cases here : first = k
    · simp only [here, ne_eq, not_true_eq_false, decide_false, Bool.false_eq_true,
        not_false_eq_true, List.filter_cons_of_neg, inductionHypothesis, find?_cons]
      by_cases same : other = k
      · simp [same]
      · simp [same, Ne.symm same]
    · simp only [here, ne_eq, not_false_eq_true, decide_true, List.filter_cons_of_pos,
        find?_cons, inductionHypothesis]
      by_cases same : other = k
      · simp [same, here]
      · simp [same]

/-- Where keys are apart, keeping the values that pass filters the view. If the one pair of a key is dropped, no other
pair of that key is left to show. -/
theorem find?_keep (t : Table κ β) (passes : β → Bool) (distinct : t.Distinct) (k : κ) :
    (t.keep passes).find? k = (t.find? k).filter passes := by
  obtain ⟨pairs⟩ := t
  unfold keep
  induction pairs with
  | nil => rfl
  | cons pair rest inductionHypothesis =>
    obtain ⟨first, w⟩ := pair
    obtain ⟨absent, apart⟩ := List.nodup_cons.mp distinct
    have tail : find? ⟨rest.filter fun e => passes e.2⟩ k = (find? ⟨rest⟩ k).filter passes :=
      inductionHypothesis apart
    rw [find?_cons, List.filter_cons]
    by_cases kept : passes w = true
    · rw [if_pos kept, find?_cons, tail]
      by_cases here : first = k <;> simp [here, Option.filter, kept]
    · rw [if_neg kept, tail]
      by_cases here : first = k
      · subst here
        rw [find?_eq_none_of_absent first rest absent]
        simp [Option.filter, kept]
      · simp [here]

/-- Setting keeps keys apart: replacing a value changes no key, and a key that is put last was not there. -/
theorem distinct_insert (t : Table κ β) (distinct : t.Distinct) (k : κ) (v : β) :
    (t.insert k v).Distinct := by
  obtain ⟨pairs⟩ := t
  unfold insert
  by_cases known : pairs.any (·.1 = k) = true
  · rw [if_pos known]
    have sameKeys : (pairs.map fun p => if p.1 = k then (k, v) else p).map (·.1) = pairs.map (·.1) := by
      rw [List.map_map]
      apply List.map_congr_left
      intro p _
      by_cases here : p.1 = k <;> simp [here]
    simpa only [Distinct, sameKeys] using distinct
  · rw [if_neg known]
    have free : k ∉ pairs.map (·.1) := by
      intro member
      obtain ⟨p, inside, same⟩ := List.mem_map.mp member
      exact known (List.any_eq_true.mpr ⟨p, inside, by simpa using same⟩)
    simp only [Distinct, List.map_append, List.map_cons, List.map_nil]
    refine List.nodup_append.mpr ⟨distinct, by simp, ?_⟩
    intro a inside b last
    rw [List.mem_singleton] at last
    intro same
    exact free (last ▸ same ▸ inside)

/-- Erasing keeps keys apart, for what is left is a part of what was there. -/
theorem distinct_erase (t : Table κ β) (distinct : t.Distinct) (k : κ) : (t.erase k).Distinct :=
  List.Nodup.sublist (List.Sublist.map _ List.filter_sublist) distinct

/-- Where keys are apart, a pair is in the table exactly if its key shows its value, since no other pair of the key can
come first. -/
theorem mem_pairs_iff {t : Table κ β} (distinct : t.Distinct) (k : κ) (v : β) :
    (k, v) ∈ t.pairs ↔ t.find? k = some v := by
  obtain ⟨pairs⟩ := t
  induction pairs with
  | nil => simp [find?]
  | cons pair rest inductionHypothesis =>
    obtain ⟨first, w⟩ := pair
    obtain ⟨absent, apart⟩ := List.nodup_cons.mp distinct
    have tail : (k, v) ∈ rest ↔ find? ⟨rest⟩ k = some v := inductionHypothesis apart
    rw [find?_cons, List.mem_cons, tail]
    by_cases here : first = k
    · subst here
      have gone : find? ⟨rest⟩ first = none := find?_eq_none_of_absent first rest absent
      simp [gone, eq_comm]
    · simp [here, Ne.symm here]

/-- Tables that show the same values that pass have as many of them, in whatever order they were set. What passes are
the same pairs, each once, so one list is the other in another order. -/
theorem count_eq {t u : Table κ β} {passes : β → Bool} (distinct : t.Distinct) (distinct' : u.Distinct)
    (same : ∀ k, (t.find? k).filter passes = (u.find? k).filter passes) :
    t.count passes = u.count passes := by
  have kept : (t.keep passes).Distinct := distinct_keep t distinct passes
  have kept' : (u.keep passes).Distinct := distinct_keep u distinct' passes
  have members : ∀ p, p ∈ (t.keep passes).pairs ↔ p ∈ (u.keep passes).pairs := by
    rintro ⟨k, v⟩
    rw [mem_pairs_iff kept, mem_pairs_iff kept', find?_keep t passes distinct, find?_keep u passes distinct', same]
  have equal : (t.keep passes).pairs.Perm (u.keep passes).pairs :=
    (List.perm_ext_iff_of_nodup (nodup_pairs kept) (nodup_pairs kept')).mpr members
  unfold count
  rw [List.countP_eq_length_filter, List.countP_eq_length_filter]
  exact equal.length_eq

end Turnstile.Table
