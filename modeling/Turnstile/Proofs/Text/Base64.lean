import Turnstile.Proofs.Http.Headers
import Turnstile.Text.Base64

/-!
What is encoded in Base64 is decoded to the same octets.

The text of octets falls into groups of four characters, one for each three octets, the last of which may be padded.
Decoding goes from group to group in the same way, so the argument follows the octets three by three.
-/

namespace Turnstile.Base64

/-- What is encoded stands in front of what was done before. -/
theorem encodeOnto_append (octets : List UInt8) (done : List Char) :
    encodeOnto done octets = encodeOnto [] octets ++ done := by
  match octets with
  | [] | [_] | [_, _] => rfl
  | a :: b :: c :: rest =>
    simp only [encodeOnto]
    rw [encodeOnto_append rest, encodeOnto_append rest [_, _, _, _], List.append_assoc]
    rfl

/-- A symbol is ASCII, has the value that it stands for, and is not padding. There are 64 of them. -/
theorem symbol_value {n : Nat} (small : n < 64) :
    (symbol n).toNat < 128 ∧ value? (symbol n).toUInt8 = some n ∧ (symbol n).toUInt8 ≠ pad := by
  revert n
  decide

/-- The values of the symbols of three octets are six bits each. -/
theorem fourValues_small (a b c : UInt8) :
    ∀ n ∈ [a.toNat / 4, a.toNat % 4 * 16 + b.toNat / 16, b.toNat % 16 * 4 + c.toNat / 64, c.toNat % 64], n < 64 := by
  have first := a.toNat_lt
  have second := b.toNat_lt
  have third := c.toNat_lt
  simp
  omega

/-- The octet of a value below 64. -/
def symbolOctet (n : Nat) : UInt8 := (symbol n).toUInt8

/-- A group: the octets of symbols and the padding behind them. -/
def group (values : List Nat) (padding : Nat) : List UInt8 := values.map symbolOctet ++ List.replicate padding pad

/-- The octets that octets are encoded in. -/
def written : List UInt8 → List UInt8
  | [] => []
  | [a] => group [a.toNat / 4, a.toNat % 4 * 16] 2
  | [a, b] => group [a.toNat / 4, a.toNat % 4 * 16 + b.toNat / 16, b.toNat % 16 * 4] 1
  | a :: b :: c :: rest =>
    group [a.toNat / 4, a.toNat % 4 * 16 + b.toNat / 16, b.toNat % 16 * 4 + c.toNat / 64, c.toNat % 64] 0 ++
      written rest

/-- The characters of a group. -/
def groupChars (values : List Nat) (padding : Nat) : List Char := values.map symbol ++ List.replicate padding '='

/-- The characters of a group are ASCII, and their octets are the group's, padding included. -/
theorem groupChars_octets {values : List Nat} (small : ∀ n ∈ values, n < 64) (padding : Nat) :
    (∀ c ∈ groupChars values padding, c.toNat < 128) ∧ (groupChars values padding).map Char.toUInt8 = group values padding := by
  constructor
  · intro c here
    rcases List.mem_append.mp here with symbols | pads
    · obtain ⟨n, there, rfl⟩ := List.mem_map.mp symbols
      exact (symbol_value (small n there)).1
    · rw [List.eq_of_mem_replicate pads]
      decide
  · simp only [groupChars, group, List.map_append, List.map_map, List.map_replicate]
    rfl

/-- Three octets are encoded in four symbols, and the others behind them. -/
theorem encodeChars_group (a b c : UInt8) (rest : List UInt8) :
    encodeChars (a :: b :: c :: rest) =
      groupChars [a.toNat / 4, a.toNat % 4 * 16 + b.toNat / 16, b.toNat % 16 * 4 + c.toNat / 64, c.toNat % 64] 0 ++
        encodeChars rest := by
  unfold encodeChars
  rw [encodeOnto, encodeOnto_append]
  simp [groupChars]

/-- The text of octets is ASCII, and its octets are those that the octets are encoded in. It goes group by group, and
the last one may be short. -/
theorem encodeChars_written (octets : List UInt8) :
    (∀ c ∈ encodeChars octets, c.toNat < 128) ∧ (encodeChars octets).map Char.toUInt8 = written octets := by
  match octets with
  | [] => exact ⟨fun c here => absurd here List.not_mem_nil, rfl⟩
  | [a] =>
    have first := a.toNat_lt
    have small : ∀ n ∈ [a.toNat / 4, a.toNat % 4 * 16], n < 64 := by simp; omega
    exact groupChars_octets small 2
  | [a, b] =>
    have first := a.toNat_lt
    have second := b.toNat_lt
    have small : ∀ n ∈ [a.toNat / 4, a.toNat % 4 * 16 + b.toNat / 16, b.toNat % 16 * 4], n < 64 := by simp; omega
    exact groupChars_octets small 1
  | a :: b :: c :: rest =>
    obtain ⟨ascii, octets⟩ := groupChars_octets (fourValues_small a b c) 0
    obtain ⟨asciiRest, octetsRest⟩ := encodeChars_written rest
    rw [encodeChars_group]
    constructor
    · intro d here
      exact (List.mem_append.mp here).elim (ascii d) (asciiRest d)
    · rw [List.map_append, octets, octetsRest]
      rfl

/-- So the octets of the encoded text are what was to be written. -/
theorem octetsOf_encode (octets : List UInt8) : Http.octetsOf (encode octets) = written octets := by
  obtain ⟨ascii, is⟩ := encodeChars_written octets
  rw [encode, Http.octetsOf_ascii ascii, is]

section

variable {values : List Nat} (small : ∀ n ∈ values, n < 64)
include small

/-- A group is its symbols up to the first padding, and padding from there. -/
theorem group_symbols (padding : Nat) : (group values padding).takeWhile (· != pad) = values.map symbolOctet ∧
    (group values padding).dropWhile (· != pad) = List.replicate padding pad := by
  have no_pad : ∀ b ∈ values.map symbolOctet, (b != pad) = true := by
    intro b here
    obtain ⟨n, there, rfl⟩ := List.mem_map.mp here
    exact bne_iff_ne.mpr (symbol_value (small n there)).2.2
  unfold group
  rw [List.takeWhile_append_of_pos no_pad, List.dropWhile_append_of_pos no_pad]
  cases padding <;> simp [List.replicate_succ]

/-- All symbols of a group are known, so none of them is a fault. -/
theorem group_known : (values.map symbolOctet).zipIdx.find? (fun p => (value? p.1).isNone) = none := by
  apply List.find?_eq_none.mpr
  intro p here
  obtain ⟨n, there, is⟩ := List.mem_map.mp (List.fst_mem_of_mem_zipIdx here)
  simp [← is, symbolOctet, (symbol_value (small n there)).2.1]

/-- Their values are those that the group was made of. -/
theorem group_values : (values.map symbolOctet).filterMap value? = values := by
  induction values with
  | nil => rfl
  | cons n rest inductionHypothesis =>
    have here : value? (symbolOctet n) = some n := (symbol_value (small n List.mem_cons_self)).2.1
    rw [List.map_cons, List.filterMap_cons_some here, inductionHypothesis fun m there => small m (List.mem_cons_of_mem _ there)]

end

/-- Behind the symbols of a group there is nothing but padding. -/
theorem group_padded (padding : Nat) : (List.replicate padding pad).zipIdx.find? (fun p => p.1 != pad) = none := by
  apply List.find?_eq_none.mpr
  intro p here
  simp [List.eq_of_mem_replicate (List.fst_mem_of_mem_zipIdx here)]

variable {x y z w offset : Nat}

/-- Two symbols at the end make one octet, if the second leaves no bits over. -/
theorem decodeLast_one (small : ∀ n ∈ [x, y], n < 64) (canonical : y % 16 = 0) :
    decodeLast offset (group [x, y] 2) = .ok [.ofNat (x * 4 + y / 16)] := by
  unfold decodeLast
  simp only [group_symbols small, group_known small, group_values small, group_padded, List.length_replicate, canonical,
    ne_eq, not_true_eq_false, if_false]

/-- Three symbols at the end make two octets, if the third leaves no bits over. -/
theorem decodeLast_two (small : ∀ n ∈ [x, y, z], n < 64) (canonical : z % 4 = 0) :
    decodeLast offset (group [x, y, z] 1) = .ok [.ofNat (x * 4 + y / 16), .ofNat (y % 16 * 16 + z / 4)] := by
  unfold decodeLast
  simp only [group_symbols small, group_known small, group_values small, group_padded, List.length_replicate, canonical,
    ne_eq, not_true_eq_false, if_false]

/-- Four symbols at the end make three octets. -/
theorem decodeLast_three (small : ∀ n ∈ [x, y, z, w], n < 64) :
    decodeLast offset (group [x, y, z, w] 0) =
      .ok [.ofNat (x * 4 + y / 16), .ofNat (y % 16 * 16 + z / 4), .ofNat (z % 4 * 64 + w)] := by
  unfold decodeLast
  simp only [group_symbols small, group_known small, group_values small, group_padded, List.length_replicate]

/-- A whole group in front of others is decoded, and the others after it, with the octets of the group put to what is
done. -/
theorem decodeFrom_whole (small : ∀ n ∈ [x, y, z, w], n < 64) {done rest : List UInt8} (more : rest ≠ []) :
    decodeFrom offset done (group [x, y, z, w] 0 ++ rest) =
      decodeFrom (offset + 4)
        (.ofNat (z % 4 * 64 + w) :: .ofNat (y % 16 * 16 + z / 4) :: .ofNat (x * 4 + y / 16) :: done) rest := by
  obtain ⟨e, others, rfl⟩ := List.exists_cons_of_ne_nil more
  have value {n : Nat} (here : n ∈ [x, y, z, w]) : value? (symbolOctet n) = some n := (symbol_value (small n here)).2.1
  change decodeFrom offset done
    (symbolOctet x :: symbolOctet y :: symbolOctet z :: symbolOctet w :: e :: others) = _
  rw [decodeFrom, value (by simp), value (by simp), value (by simp), value (by simp)]

/-- A group at the end is decoded behind what is done, with its padding. -/
theorem decodeFrom_last {values : List Nat} {padding : Nat} {done last : List UInt8}
    (short : values.length + padding ≤ 4) (decoded : decodeLast offset (group values padding) = .ok last) :
    decodeFrom offset done (group values padding) = .ok (done.reverse ++ last) := by
  have size : (group values padding).length ≤ 4 := by simpa [group] using short
  generalize group values padding = octets at decoded size
  rw [decodeFrom.eq_def]
  split
  · simp only [List.length_cons] at size
    omega
  · simp only [decoded]

/-- Group by group what was written is decoded: the three octets of a whole group, and at the end those that are left,
whose unused bits are zero. -/
theorem decodeFrom_written (octets : List UInt8) (offset : Nat) (done : List UInt8) :
    decodeFrom offset done (written octets) = .ok (done.reverse ++ octets) := by
  match octets with
  | [] => rfl
  | [a] =>
    have first := a.toNat_lt
    have is : a.toNat / 4 * 4 + a.toNat % 4 * 16 / 16 = a.toNat := by omega
    rw [written, decodeFrom_last (by simp) (decodeLast_one (by simp; omega) (by omega)), is, UInt8.ofNat_toNat]
  | [a, b] =>
    have first := a.toNat_lt
    have second := b.toNat_lt
    have is : a.toNat / 4 * 4 + (a.toNat % 4 * 16 + b.toNat / 16) / 16 = a.toNat := by omega
    have is₂ : (a.toNat % 4 * 16 + b.toNat / 16) % 16 * 16 + b.toNat % 16 * 4 / 4 = b.toNat := by omega
    rw [written, decodeFrom_last (by simp) (decodeLast_two (by simp; omega) (by omega)), is, is₂]
    simp only [UInt8.ofNat_toNat]
  | a :: b :: c :: rest =>
    have first := a.toNat_lt
    have second := b.toNat_lt
    have third := c.toNat_lt
    have small := fourValues_small a b c
    have is : a.toNat / 4 * 4 + (a.toNat % 4 * 16 + b.toNat / 16) / 16 = a.toNat := by omega
    have is₂ : (a.toNat % 4 * 16 + b.toNat / 16) % 16 * 16 + (b.toNat % 16 * 4 + c.toNat / 64) / 4 = b.toNat := by
      omega
    have is₃ : (b.toNat % 16 * 4 + c.toNat / 64) % 4 * 64 + c.toNat % 64 = c.toNat := by omega
    by_cases more : written rest = []
    · have last : rest = [] := by
        match rest with
        | [] => rfl
        | [_] | [_, _] | _ :: _ :: _ :: _ => simp [written, group] at more
      subst last
      rw [written, written, List.append_nil, decodeFrom_last (by simp) (decodeLast_three small), is, is₂, is₃]
      simp only [UInt8.ofNat_toNat]
    · rw [written, decodeFrom_whole small more, decodeFrom_written rest, is, is₂, is₃]
      simp [UInt8.ofNat_toNat]

/-- Whole groups leave nothing dangling, and the last one is filled up with padding. -/
theorem length_written (octets : List UInt8) : (written octets).length % 4 = 0 := by
  match octets with
  | [] | [_] | [_, _] => simp [written, group]
  | a :: b :: c :: rest =>
    have := length_written rest
    simp only [written, group, List.length_append, List.length_map, List.length_cons, List.length_nil,
      List.length_replicate]
    omega

/-- What is encoded is decoded to the same octets: no symbol dangles, and the groups are decoded one by one. -/
theorem decode_encode (octets : List UInt8) : decode (Http.octetsOf (encode octets)) = .ok octets := by
  have whole : danglingFault? (written octets) = none := by
    rw [danglingFault?, if_neg (by have := length_written octets; omega)]
  unfold decode
  rw [octetsOf_encode, whole]
  exact decodeFrom_written octets 0 []

end Turnstile.Base64
