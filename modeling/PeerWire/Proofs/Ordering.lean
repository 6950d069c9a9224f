import Mathlib.Data.List.Induction
import Mathlib.Data.Prod.Lex
import Mathlib.Data.Set.Function
import Mathlib.Tactic.Ring
import PeerWire.Proofs.Packing

/-! # The order of short channel ids

An id can be compared in three ways: as the number into which it is packed, as the location that it
names, and as the bytes in which it is written. All three give the same order
(`ShortChannelId.packing_preserves_order`). The locations are the digits of the packed number, and
the wire form is made of their wire forms, so that what decides is that the first place in which two
forms differ has more weight than all places after it. -/

namespace PeerWire

/-! ## The first place decides -/

/-- Of two numbers `high * base + low` the high parts decide, and the low parts if these are the
same. -/
theorem mul_add_lt_mul_add_iff {base high high' low low' : Nat} (small : low < base)
    (small' : low' < base) :
    high * base + low < high' * base + low' ↔ high < high' ∨ high = high' ∧ low < low' := by
  -- A step of the high part makes room for any low part.
  have step {high high' : Nat} (less : high < high') : high * base + base ≤ high' * base := by
    rw [← Nat.succ_mul]
    exact Nat.mul_le_mul_right base less
  rcases Nat.lt_trichotomy high high' with less | rfl | more
  · have room := step less
    simp only [less, true_or, iff_true]
    omega
  · simp
  · have room := step more
    simp only [Nat.not_lt_of_gt more, Nat.ne_of_gt more, false_and, or_self, iff_false]
    omega

/-- The first byte of a byte string has the weight of all byte strings behind it, `byteStringCount
bytes.length`. -/
theorem ofBigEndian_cons (byte : UInt8) (bytes : Bytes) :
    ofBigEndian (byte :: bytes) =
      byte.toNat * byteStringCount bytes.length + ofBigEndian bytes := by
  induction bytes using List.reverseRecOn with
  | nil => simp [ofBigEndian, byteStringCount]
  | append_singleton bytes last ih =>
      rw [← List.cons_append, ofBigEndian_append, ofBigEndian_append, ih, List.length_append,
        List.length_singleton, byteStringCount_succ]
      ring

/-- **Byte strings of one length are ordered as the numbers that they write**, `ofBigEndian
bytes`. -/
theorem lt_iff_ofBigEndian_lt {bytes other : Bytes} (same : bytes.length = other.length) :
    bytes < other ↔ ofBigEndian bytes < ofBigEndian other := by
  induction bytes generalizing other with
  | nil =>
      obtain rfl := List.length_eq_zero_iff.1 same.symm
      simp
  | cons byte bytes ih =>
      obtain ⟨byte', bytes', rfl⟩ : ∃ byte' bytes', other = byte' :: bytes' :=
        List.exists_cons_of_length_pos (by rw [← same]; exact Nat.succ_pos _)
      have same : bytes.length = bytes'.length := Nat.succ.inj same
      have small := ofBigEndian_lt bytes
      have small' := ofBigEndian_lt bytes'
      rw [← same] at small'
      rw [List.cons_lt_cons_iff, ofBigEndian_cons, ofBigEndian_cons, ← same,
        mul_add_lt_mul_add_iff small small', ih same, UInt8.lt_iff_toNat_lt, UInt8.toNat_inj]

namespace ShortChannelId

/-! ## Locations -/

/-- What an id locates: by height, then by transaction index, then by output index. -/
def location (id : ShortChannelId) : UInt32 ×ₗ UInt32 ×ₗ UInt16 :=
  toLex (id.height, toLex (id.index, id.output))

/-- The locations that an id has room for. -/
def roomy : Set (UInt32 × UInt32 × UInt16) :=
  {parts | parts.1.toNat < 2 ^ 24 ∧ parts.2.1.toNat < 2 ^ 24}

/-- The height of an id has 24 bits: `id.height.toNat < 2 ^ 24`. -/
theorem toNat_height_lt (id : ShortChannelId) : id.height.toNat < 2 ^ 24 := by
  have wide : id.packed.toNat < 2 ^ 64 := id.packed.toNat_lt
  rw [toNat_height]
  omega

/-- The transaction index of an id has 24 bits: `id.index.toNat < 2 ^ 24`. -/
theorem toNat_index_lt (id : ShortChannelId) : id.index.toNat < 2 ^ 24 := by
  rw [toNat_index]
  omega

/-- Both indices of an id together have 40 bits: they are below `2 ^ 40`. -/
theorem toNat_indices_lt (id : ShortChannelId) :
    id.index.toNat * 2 ^ 16 + id.output.toNat < 2 ^ 40 := by
  have early := id.toNat_index_lt
  have small : id.output.toNat < 2 ^ 16 := id.output.toNat_lt
  omega

/-- An id is the sum of its parts: `height * 2 ^ 40 + (index * 2 ^ 16 + output)`. -/
theorem toNat_packed (id : ShortChannelId) :
    id.packed.toNat =
      id.height.toNat * 2 ^ 40 + (id.index.toNat * 2 ^ 16 + id.output.toNat) := by
  rw [toNat_height, toNat_index, toNat_output]
  omega

/-- **The parts of an id are packed into it again**: `ofParts id.height id.index id.output = id`. -/
theorem ofParts_parts (id : ShortChannelId) : ofParts id.height id.index id.output = id := by
  have same : (ofParts id.height id.index id.output).packed = id.packed := by
    apply UInt64.toNat_inj.1
    rw [toNat_ofParts, Nat.mod_eq_of_lt id.toNat_height_lt, Nat.mod_eq_of_lt id.toNat_index_lt,
      toNat_packed]
  cases id
  exact congrArg mk same

/-- Packing is one to one between the locations that have room and the ids. -/
theorem bijOn_ofParts :
    Set.BijOn (fun parts => ofParts parts.1 parts.2.1 parts.2.2) roomy Set.univ := by
  have back : Set.LeftInvOn (fun id : ShortChannelId => (id.height, id.index, id.output))
      (fun parts => ofParts parts.1 parts.2.1 parts.2.2) roomy := by
    rintro ⟨height, index, output⟩ ⟨low, early⟩
    show (_, _, _) = (height, index, output)
    rw [Prod.mk.injEq, Prod.mk.injEq]
    exact parts_ofParts low early
  have inverse := And.intro back fun (id : ShortChannelId) (_ : id ∈ Set.univ) => id.ofParts_parts
  apply Set.InvOn.bijOn inverse
  · intro parts _
    exact Set.mem_univ _
  · intro id _
    exact ⟨id.toNat_height_lt, id.toNat_index_lt⟩

/-- **Ids are ordered as what they locate**: `id < other` if `id.location < other.location`. -/
theorem lt_iff_location_lt {id other : ShortChannelId} :
    id < other ↔ id.location < other.location := by
  have output : id.output.toNat < 2 ^ 16 := id.output.toNat_lt
  have output' : other.output.toNat < 2 ^ 16 := other.output.toNat_lt
  show id.packed < other.packed ↔ _
  rw [location, location, Prod.Lex.toLex_lt_toLex, Prod.Lex.toLex_lt_toLex, UInt64.lt_iff_toNat_lt,
    toNat_packed, toNat_packed, mul_add_lt_mul_add_iff id.toNat_indices_lt other.toNat_indices_lt,
    mul_add_lt_mul_add_iff output output']
  simp only [UInt32.lt_iff_toNat_lt, UInt16.lt_iff_toNat_lt, UInt32.toNat_inj]

/-! ## Wire forms -/

/-- **An id is written as its parts**, one after the other: three bytes each of height and index,
and two of the output, by `bigEndian`. -/
theorem encode_eq_parts (id : ShortChannelId) :
    id.encode = bigEndian 3 id.height.toNat ++ bigEndian 3 id.index.toNat ++
      bigEndian 2 id.output.toNat := by
  -- Five bytes follow those of the height, and two of these follow the transaction index.
  have height : id.packed.toNat / byteStringCount 5 = id.height.toNat := (toNat_height id).symm
  have index : bigEndian 3 (id.packed.toNat / byteStringCount 2) = bigEndian 3 id.index.toNat := by
    rw [← bigEndian_mod, toNat_index]
    rfl
  have output : bigEndian 2 id.packed.toNat = bigEndian 2 id.output.toNat := by
    rw [← bigEndian_mod, toNat_output]
    rfl
  rw [encode, bigEndian_add 3 5, height, bigEndian_add 3 2, index, output, List.append_assoc]

/-- **Ids are ordered as they are written**: `id.encode < other.encode` if `id < other`. -/
theorem encode_lt_encode_iff {id other : ShortChannelId} :
    id.encode < other.encode ↔ id < other := by
  have written (id : ShortChannelId) : ofBigEndian id.encode = id.packed.toNat := by
    rw [encode, ofBigEndian_bigEndian]
    exact Nat.mod_eq_of_lt id.packed.toNat_lt
  rw [lt_iff_ofBigEndian_lt (by rw [encode, encode, length_bigEndian, length_bigEndian]), written,
    written]
  exact UInt64.lt_iff_toNat_lt.symm

/-- **Packing is one to one and keeps the order.** The parts that are read off an id are packed into
it again, `ofParts id.height id.index id.output = id`. What is packed is read back, a height and a
transaction index modulo `2 ^ 24`, so that packing is one to one between the locations that have
room and all ids. An id comes before another, `id < other`, exactly if `id.location <
other.location`: by height, then by transaction index, then by output index. It is written as its
height in three bytes, its transaction index in three and its output index in two, each highest byte
first, and so comes before another exactly if `id.encode < other.encode`. -/
theorem packing_preserves_order :
    (∀ id : ShortChannelId, ofParts id.height id.index id.output = id) ∧
    (∀ height index output,
      (ofParts height index output).height.toNat = height.toNat % 2 ^ 24 ∧
      (ofParts height index output).index.toNat = index.toNat % 2 ^ 24 ∧
      (ofParts height index output).output = output) ∧
    Set.BijOn (fun parts => ofParts parts.1 parts.2.1 parts.2.2) roomy Set.univ ∧
    (∀ id other : ShortChannelId, id < other ↔ id.location < other.location) ∧
    (∀ id : ShortChannelId,
      id.encode = bigEndian 3 id.height.toNat ++ bigEndian 3 id.index.toNat ++
        bigEndian 2 id.output.toNat) ∧
    ∀ id other : ShortChannelId, id.encode < other.encode ↔ id < other :=
  ⟨ofParts_parts, fun _ _ _ => ⟨toNat_height_ofParts, toNat_index_ofParts, output_ofParts⟩,
    bijOn_ofParts, fun _ _ => lt_iff_location_lt, encode_eq_parts,
    fun _ _ => encode_lt_encode_iff⟩

/-- Bits past the 24th are dropped, and a greater height counts more than the greatest indices. -/
example :
    (ofParts 0x01000001 0x02000002 3).encode = [0, 0, 1, 0, 0, 2, 0, 3] ∧
      ofParts 1 0xFFFFFF 0xFFFF < ofParts 2 0 0 := by
  decide

end ShortChannelId

end PeerWire
