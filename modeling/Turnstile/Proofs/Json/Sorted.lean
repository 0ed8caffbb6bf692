import Mathlib.Data.String.Basic
import Turnstile.Proofs.Json.Value

/-!
Values with their members sorted.

Sorting keeps the members of every object in the order of their names, one member a name. Whoever sorts a sorted value
gets the same value, so a value that goes to its text and back more than once does not change any more after the first
time.
-/

namespace Turnstile.Json.Value

/-- The members are in the order of their names, with one member a name. -/
def Ordered (members : List (String × Value)) : Prop := members.Pairwise fun m n => m.1 < n.1

/-- What is among the members after one was put in was there before, or it is that one. -/
theorem mem_put {name : String} {v : Value} {members : List (String × Value)} {m : String × Value}
    (here : m ∈ put name v members) : m = (name, v) ∨ m ∈ members := by
  induction members with
  | nil => exact .inl (List.mem_singleton.mp here)
  | cons other rest inductionHypothesis =>
    simp only [put] at here
    split at here
    · exact List.mem_cons.mp here
    split at here
    · rcases List.mem_cons.mp here with is | later
      · exact .inl is
      · exact .inr (List.mem_cons_of_mem _ later)
    · rcases List.mem_cons.mp here with is | later
      · exact .inr (is ▸ List.mem_cons_self)
      · exact (inductionHypothesis later).imp id (List.mem_cons_of_mem _)

/-- Members in order stay in order when one is put in: it comes before the first name that is greater, or in the place
of its own. -/
theorem Ordered.put {members : List (String × Value)} (ordered : Ordered members) (name : String) (v : Value) :
    Ordered (put name v members) := by
  induction members with
  | nil => exact List.pairwise_singleton _ _
  | cons other rest inductionHypothesis =>
    obtain ⟨first, later⟩ := List.pairwise_cons.mp ordered
    simp only [Value.put]
    split
    · rename_i before
      apply List.pairwise_cons.mpr
      constructor
      · intro m here
        rcases List.mem_cons.mp here with rfl | further
        · exact before
        · exact before.trans (first m further)
      · exact ordered
    split
    · rename_i same
      apply List.pairwise_cons.mpr
      constructor
      · intro m here
        exact same ▸ first m here
      · exact later
    · rename_i notBefore different
      apply List.pairwise_cons.mpr
      constructor
      · intro m here
        rcases mem_put here with rfl | further
        · exact lt_of_le_of_ne (not_lt.mp notBefore) (Ne.symm different)
        · exact first m further
      · exact inductionHypothesis later

/-- A member behind all others goes to the end. -/
theorem put_last {name : String} {v : Value} {members : List (String × Value)} (last : ∀ m ∈ members, m.1 < name) :
    put name v members = members ++ [(name, v)] := by
  induction members with
  | nil => rfl
  | cons other rest inductionHypothesis =>
    have before : other.1 < name := last other List.mem_cons_self
    simp only [put, before.not_gt, before.ne', if_false, List.cons_append]
    rw [inductionHypothesis fun m here => last m (List.mem_cons_of_mem _ here)]

/-- Members that are put in one by one come out in order. -/
theorem Ordered.sortedMembers (members : List (String × Value)) {done : List (String × Value)} (ordered : Ordered done) :
    Ordered (sortedMembers members done) := by
  induction members generalizing done with
  | nil => exact ordered
  | cons m rest inductionHypothesis => exact inductionHypothesis (ordered.put m.1 m.2.sorted)

/-- What comes out is what was there before or one of the members, sorted itself. -/
theorem mem_sortedMembers {members done : List (String × Value)} {m : String × Value}
    (here : m ∈ sortedMembers members done) : m ∈ done ∨ ∃ n ∈ members, m = (n.1, n.2.sorted) := by
  induction members generalizing done with
  | nil => exact .inl here
  | cons n rest inductionHypothesis =>
    rcases inductionHypothesis here with before | ⟨n', later, is⟩
    · rcases mem_put before with is | before
      · exact .inr ⟨n, List.mem_cons_self, is⟩
      · exact .inl before
    · exact .inr ⟨n', List.mem_cons_of_mem _ later, is⟩

/-- Members that are in order and sorted already stay as they are, since each goes behind all that are done. -/
theorem sortedMembers_eq {members done : List (String × Value)} (ordered : Ordered (done ++ members))
    (sorted : ∀ m ∈ members, m.2.sorted = m.2) : sortedMembers members done = done ++ members := by
  induction members generalizing done with
  | nil => exact (List.append_nil _).symm
  | cons m rest inductionHypothesis =>
    have last : ∀ n ∈ done, n.1 < m.1 := fun n here =>
      (List.pairwise_append.mp ordered).2.2 n here m List.mem_cons_self
    rw [Value.sortedMembers, sorted m List.mem_cons_self, put_last last]
    rw [List.append_cons] at ordered
    rw [inductionHypothesis ordered fun n here => sorted n (List.mem_cons_of_mem _ here), ← List.append_cons]

/-- Items are sorted each by itself and keep their places. -/
theorem sortedItems_eq (items : List Value) : sortedItems items = items.map sorted := by
  induction items with
  | nil => rfl
  | cons v rest inductionHypothesis => rw [sortedItems, inductionHypothesis, List.map_cons]

/-- The values that a value is made of. -/
def parts : Value → List Value
  | .array items => items
  | .object members => members.map (·.2)
  | .null | .bool _ | .integer _ | .real _ | .text _ => []

mutual

/-- What holds of a value as soon as it holds of all its parts holds of every value. It spares every statement about
values the same mutual recursion over items and members. -/
theorem of_parts {holds : Value → Prop} (whole : ∀ v, (∀ part ∈ v.parts, holds part) → holds v) (v : Value) :
    holds v := by
  apply whole
  cases v with
  | null | bool _ | integer _ | real _ | text _ => exact fun part here => absurd here List.not_mem_nil
  | array items => exact items_of_parts whole items
  | object members => exact members_of_parts whole members

/-- For items it is an induction on the list. -/
theorem items_of_parts {holds : Value → Prop} (whole : ∀ v, (∀ part ∈ v.parts, holds part) → holds v)
    (items : List Value) : ∀ v ∈ items, holds v := by
  cases items with
  | nil => exact fun v here => absurd here List.not_mem_nil
  | cons v rest => exact List.forall_mem_cons.mpr ⟨of_parts whole v, items_of_parts whole rest⟩

/-- And for members as well, whatever their names are. -/
theorem members_of_parts {holds : Value → Prop} (whole : ∀ v, (∀ part ∈ v.parts, holds part) → holds v)
    (members : List (String × Value)) : ∀ v ∈ members.map (·.2), holds v := by
  cases members with
  | nil => exact fun v here => absurd here List.not_mem_nil
  | cons m rest =>
    obtain ⟨name, v⟩ := m
    exact List.forall_mem_cons.mpr ⟨of_parts whole v, members_of_parts whole rest⟩

end

/-- Sorting once is enough: what comes out is in order, and its parts are sorted by what is known of them. -/
theorem sorted_sorted (v : Value) : v.sorted.sorted = v.sorted := by
  induction v using of_parts with
  | whole v inductionHypothesis =>
    cases v with
    | null | bool _ | integer _ | real _ | text _ => rfl
    | array items =>
      simp only [sorted, sortedItems_eq, List.map_map]
      congr 1
      exact List.map_congr_left inductionHypothesis
    | object members =>
      simp only [sorted]
      congr 1
      apply sortedMembers_eq (Ordered.sortedMembers members List.Pairwise.nil)
      intro m here
      rcases mem_sortedMembers here with before | ⟨n, there, rfl⟩
      · cases before
      · exact inductionHypothesis n.2 (List.mem_map_of_mem there)

/-- Every object in it, however deep, has its members in the order of their names, with one member a name. -/
inductive InOrder : Value → Prop
  | whole (v : Value) (members : ∀ members, v = object members → Ordered members)
    (inside : ∀ part ∈ v.parts, part.InOrder) : InOrder v

/-- Nothing is left to sort where every object is in order. -/
theorem InOrder.sorted_eq {v : Value} (inOrder : v.InOrder) : v.sorted = v := by
  induction inOrder with
  | whole v members inside inductionHypothesis =>
    cases v with
    | null | bool _ | integer _ | real _ | text _ => rfl
    | array items =>
      simp only [sorted, sortedItems_eq]
      congr 1
      exact (List.map_congr_left inductionHypothesis).trans (List.map_id' items)
    | object members' =>
      have ordered : Ordered ([] ++ members') := members members' rfl
      simp only [sorted]
      congr 1
      exact sortedMembers_eq ordered fun m here => inductionHypothesis m.2 (List.mem_map_of_mem here)

/-- An array is plain exactly if all its items are. -/
theorem plain_array {items : List Value} : (array items).Plain ↔ ∀ v ∈ items, v.Plain := by
  induction items with
  | nil => simp [Plain, PlainItems]
  | cons v rest inductionHypothesis => simpa [Plain, PlainItems] using fun _ => inductionHypothesis

/-- An object is plain exactly if all its members are. -/
theorem plain_object {members : List (String × Value)} : (object members).Plain ↔ ∀ m ∈ members, m.2.Plain := by
  induction members with
  | nil => simp [Plain, PlainMembers]
  | cons m rest inductionHypothesis => simpa [Plain, PlainMembers] using fun _ => inductionHypothesis

/-- Items are nested no deeper than some level exactly if none of them is. -/
theorem itemsLevels_le {items : List Value} {n : Nat} : itemsLevels items ≤ n ↔ ∀ v ∈ items, v.levels ≤ n := by
  induction items with
  | nil => simp [itemsLevels]
  | cons v rest inductionHypothesis => simp [itemsLevels, inductionHypothesis]

/-- And members in the same way. -/
theorem membersLevels_le {members : List (String × Value)} {n : Nat} :
    membersLevels members ≤ n ↔ ∀ m ∈ members, m.2.levels ≤ n := by
  induction members with
  | nil => simp [membersLevels]
  | cons m rest inductionHypothesis => simp [membersLevels, inductionHypothesis]

/-- Sorting puts nothing in that was not there, so a plain value stays plain. -/
theorem Plain.sorted {v : Value} (plain : v.Plain) : v.sorted.Plain := by
  induction v using of_parts with
  | whole v inductionHypothesis =>
    cases v with
    | null | bool _ | integer _ | real _ | text _ => exact plain
    | array items =>
      rw [Value.sorted, sortedItems_eq, plain_array]
      intro w here
      obtain ⟨v, there, rfl⟩ := List.mem_map.mp here
      exact inductionHypothesis v there (plain_array.mp plain v there)
    | object members =>
      rw [Value.sorted, plain_object]
      intro m here
      rcases mem_sortedMembers here with before | ⟨n, there, rfl⟩
      · cases before
      · exact inductionHypothesis n.2 (List.mem_map_of_mem there) (plain_object.mp plain n there)

/-- Sorting nests nothing deeper. It may take away what was nested deepest, where a name occurs twice. -/
theorem levels_sorted (v : Value) : v.sorted.levels ≤ v.levels := by
  induction v using of_parts with
  | whole v inductionHypothesis =>
    cases v with
    | null | bool _ | integer _ | real _ | text _ => exact Nat.le_refl _
    | array items =>
      rw [sorted, sortedItems_eq, levels, levels]
      apply Nat.succ_le_succ
      apply itemsLevels_le.mpr
      intro w here
      obtain ⟨v, there, rfl⟩ := List.mem_map.mp here
      exact Nat.le_trans (inductionHypothesis v there) (itemsLevels_le.mp (Nat.le_refl _) v there)
    | object members =>
      rw [sorted, levels, levels]
      apply Nat.succ_le_succ
      apply membersLevels_le.mpr
      intro m here
      rcases mem_sortedMembers here with before | ⟨n, there, rfl⟩
      · cases before
      · exact Nat.le_trans (inductionHypothesis n.2 (List.mem_map_of_mem there))
          (membersLevels_le.mp (Nat.le_refl _) n there)

end Turnstile.Json.Value
