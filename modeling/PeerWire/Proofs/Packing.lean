import PeerWire.ShortChannelId
import Mathlib.Data.Nat.Bitwise

/-! # Packed channel locations

A packed id is a number with three digits, of 24, 24 and 16 bits. What is packed is a sum
(`ShortChannelId.toNat_ofParts`), what is read off it are quotients and remainders, and so a
location is read back as it was packed, up to the bits that its digits have no room for. -/

namespace PeerWire.ShortChannelId

/-! ## Reading off the parts -/

/-- The height is the highest 24 bits: `id.packed.toNat / 2 ^ 40`. -/
theorem toNat_height (id : ShortChannelId) : id.height.toNat = id.packed.toNat / 2 ^ 40 := by
  have wide : id.packed.toNat < 2 ^ 64 := id.packed.toNat_lt
  have shifted : (id.packed >>> 40).toNat = id.packed.toNat / 2 ^ 40 := by
    rw [UInt64.toNat_shiftRight, Nat.shiftRight_eq_div_pow]
    rfl
  rw [height, UInt64.toNat_toUInt32, shifted]
  exact Nat.mod_eq_of_lt (by omega)

/-- The index of the transaction is the 24 bits below them: `id.packed.toNat / 2 ^ 16 % 2 ^ 24`. -/
theorem toNat_index (id : ShortChannelId) :
    id.index.toNat = id.packed.toNat / 2 ^ 16 % 2 ^ 24 := by
  have masked : ((id.packed >>> 16) &&& 0xFFFFFF).toNat = id.packed.toNat / 2 ^ 16 % 2 ^ 24 := by
    rw [UInt64.toNat_and, UInt64.toNat_shiftRight, Nat.shiftRight_eq_div_pow]
    exact Nat.and_two_pow_sub_one_eq_mod _ 24
  rw [index, UInt64.toNat_toUInt32, masked]
  exact Nat.mod_eq_of_lt (by omega)

/-- The index of the output is the lowest 16 bits: `id.packed.toNat % 2 ^ 16`. -/
theorem toNat_output (id : ShortChannelId) : id.output.toNat = id.packed.toNat % 2 ^ 16 :=
  UInt64.toNat_toUInt16 _

/-! ## Packing -/

/-- A 32-bit number without its bits past the 24th, moved up by `places` bits that it has room
for. -/
theorem toNat_masked_shiftLeft (part : UInt32) {places : UInt64} (room : places.toNat ≤ 40) :
    ((part.toUInt64 &&& 0xFFFFFF) <<< places).toNat =
      part.toNat % 2 ^ 24 * 2 ^ places.toNat := by
  have masked : (part.toUInt64 &&& 0xFFFFFF).toNat = part.toNat % 2 ^ 24 := by
    rw [UInt64.toNat_and, UInt32.toNat_toUInt64]
    exact Nat.and_two_pow_sub_one_eq_mod _ 24
  have small : part.toNat % 2 ^ 24 * 2 ^ places.toNat < 2 ^ 64 := calc
    part.toNat % 2 ^ 24 * 2 ^ places.toNat < 2 ^ 24 * 2 ^ places.toNat :=
      Nat.mul_lt_mul_of_pos_right (Nat.mod_lt _ (by decide)) (Nat.two_pow_pos _)
    _ ≤ 2 ^ 24 * 2 ^ 40 := Nat.mul_le_mul_left _ (Nat.pow_le_pow_right (by decide) room)
  have within : places.toNat % 64 = places.toNat := Nat.mod_eq_of_lt (by omega)
  rw [UInt64.toNat_shiftLeft, masked, within, Nat.shiftLeft_eq]
  exact Nat.mod_eq_of_lt small

/-- **A packed location is the sum of its parts**, each at its place: the height at `2 ^ 40`, the
index at `2 ^ 16`, and the output. -/
theorem toNat_ofParts (height index : UInt32) (output : UInt16) :
    (ofParts height index output).packed.toNat =
      height.toNat % 2 ^ 24 * 2 ^ 40 + (index.toNat % 2 ^ 24 * 2 ^ 16 + output.toNat) := by
  have low : output.toNat < 2 ^ 16 := output.toNat_lt
  have inner : index.toNat % 2 ^ 24 * 2 ^ 16 ||| output.toNat =
      index.toNat % 2 ^ 24 * 2 ^ 16 + output.toNat := by
    rw [Nat.mul_comm, Nat.two_pow_add_eq_or_of_lt low]
  have outer : height.toNat % 2 ^ 24 * 2 ^ 40 ||| (index.toNat % 2 ^ 24 * 2 ^ 16 + output.toNat) =
      height.toNat % 2 ^ 24 * 2 ^ 40 + (index.toNat % 2 ^ 24 * 2 ^ 16 + output.toNat) := by
    have middle : index.toNat % 2 ^ 24 * 2 ^ 16 + output.toNat < 2 ^ 40 := by omega
    rw [Nat.mul_comm, Nat.two_pow_add_eq_or_of_lt middle]
  rw [ofParts, UInt64.toNat_or, UInt64.toNat_or, toNat_masked_shiftLeft height (by decide),
    toNat_masked_shiftLeft index (by decide), UInt16.toNat_toUInt64, Nat.or_assoc]
  exact (congrArg _ inner).trans outer

variable {height index : UInt32} {output : UInt16}

/-- A packed height is read back without its bits past the 24th: `height.toNat % 2 ^ 24`. -/
theorem toNat_height_ofParts :
    (ofParts height index output).height.toNat = height.toNat % 2 ^ 24 := by
  have low : output.toNat < 2 ^ 16 := output.toNat_lt
  rw [toNat_height, toNat_ofParts]
  omega

/-- A packed transaction index is read back without its bits past the 24th. -/
theorem toNat_index_ofParts :
    (ofParts height index output).index.toNat = index.toNat % 2 ^ 24 := by
  have low : output.toNat < 2 ^ 16 := output.toNat_lt
  rw [toNat_index, toNat_ofParts]
  omega

/-- A packed output index is read back: `(ofParts height index output).output = output`. -/
theorem output_ofParts : (ofParts height index output).output = output := by
  have low : output.toNat < 2 ^ 16 := output.toNat_lt
  apply UInt16.toNat_inj.1
  rw [toNat_output, toNat_ofParts]
  omega

/-- **A location that has room is read back as it was packed** by `ofParts height index output`. -/
theorem parts_ofParts (low : height.toNat < 2 ^ 24) (early : index.toNat < 2 ^ 24) :
    (ofParts height index output).height = height ∧
      (ofParts height index output).index = index ∧
        (ofParts height index output).output = output := by
  refine ⟨?_, ?_, output_ofParts⟩
  · apply UInt32.toNat_inj.1
    rw [toNat_height_ofParts, Nat.mod_eq_of_lt low]
  · apply UInt32.toNat_inj.1
    rw [toNat_index_ofParts, Nat.mod_eq_of_lt early]

end PeerWire.ShortChannelId
