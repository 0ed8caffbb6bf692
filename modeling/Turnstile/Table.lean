/-!
Finite maps as lists of pairs.

A table built by `insert` and `erase` has each key once. What it holds is seen through `find?`.
-/

namespace Turnstile

/-- A table: keys with their values. -/
structure Table (κ β : Type) where
  pairs : List (κ × β)
  deriving Repr

namespace Table

variable {κ β : Type} [DecidableEq κ]

def empty : Table κ β := ⟨[]⟩

instance : Inhabited (Table κ β) := ⟨empty⟩

/-- The value at a key. -/
def find? (t : Table κ β) (k : κ) : Option β := (t.pairs.find? (·.1 = k)).map (·.2)

/-- Sets the value at a key; a new key comes last. -/
def insert (t : Table κ β) (k : κ) (v : β) : Table κ β :=
  if t.pairs.any (·.1 = k) then ⟨t.pairs.map fun p => if p.1 = k then (k, v) else p⟩
  else ⟨t.pairs ++ [(k, v)]⟩

def erase (t : Table κ β) (k : κ) : Table κ β := ⟨t.pairs.filter (·.1 ≠ k)⟩

/-- Keeps the pairs whose value passes. -/
def keep (t : Table κ β) (p : β → Bool) : Table κ β := ⟨t.pairs.filter fun e => p e.2⟩

def size (t : Table κ β) : Nat := t.pairs.length

def isEmpty (t : Table κ β) : Bool := t.pairs.isEmpty

/-- How many values pass. -/
def count (t : Table κ β) (p : β → Bool) : Nat := t.pairs.countP fun e => p e.2

end Table

end Turnstile
