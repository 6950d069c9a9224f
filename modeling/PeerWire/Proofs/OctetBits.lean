import Mathlib.Data.List.GetD
import Mathlib.Data.List.Induction
import Mathlib.Data.List.TakeWhile
import Mathlib.Data.Nat.Bitwise
import PeerWire.Features

/-! # Bits in byte strings

A byte string that holds the lowest bits first has a bit at every position, zero past its end.
Zeros at the end do not matter (`bitAt_trimZeros`), and byte strings that end in no zero are told
apart by their bits (`eq_of_bitAt_eq`). A mask with one bit changes that position and no other; the
bits of a byte string read from its other end are those of the number that it writes
(`testBit_ofBigEndian`). -/

namespace PeerWire

open FeatureVector (bitMask)

/-- Whether a bit is one, where the lowest bits come first: bit `bit % 8` of the byte `bit / 8`. -/
def bitAt (octets : Bytes) (bit : Nat) : Bool :=
  (octets.getD (bit / 8) 0).toNat.testBit (bit % 8)

variable {octets others : Bytes} {bit place index : Nat}

/-- What is so for each `number < 256` is so for all bytes. -/
theorem forall_octet {P : UInt8 → Prop} (each : ∀ number < 256, P (UInt8.ofNat number))
    (octet : UInt8) : P octet := by
  rw [← UInt8.ofNat_toNat (x := octet)]
  exact each octet.toNat octet.toNat_lt

/-- A byte has no bits past its eighth: none at a `place ≥ 8`. -/
theorem testBit_octet_of_le (octet : UInt8) (high : 8 ≤ place) :
    octet.toNat.testBit place = false :=
  Nat.testBit_lt_two_pow (Nat.lt_of_lt_of_le octet.toNat_lt (Nat.pow_le_pow_right (by decide) high))

/-- Bytes with the same eight bits are the same. -/
theorem octet_eq_of_testBit_eq {octet octet' : UInt8}
    (same : ∀ place < 8, octet.toNat.testBit place = octet'.toNat.testBit place) :
    octet = octet' := by
  apply UInt8.toNat_inj.1
  apply Nat.eq_of_testBit_eq
  intro place
  by_cases low : place < 8
  · exact same place low
  · rw [testBit_octet_of_le octet (Nat.le_of_not_lt low),
      testBit_octet_of_le octet' (Nat.le_of_not_lt low)]

/-- The bits of one byte of a byte string, at `8 * index + place`. -/
theorem bitAt_add (octets : Bytes) (index : Nat) (low : place < 8) :
    bitAt octets (8 * index + place) = (octets.getD index 0).toNat.testBit place := by
  rw [bitAt, Nat.mul_add_div (by decide), Nat.div_eq_of_lt low, Nat.add_zero,
    Nat.mul_add_mod, Nat.mod_eq_of_lt low]

/-- Past the end every bit is zero. -/
theorem bitAt_of_length_le (past : octets.length ≤ bit / 8) : bitAt octets bit = false := by
  rw [bitAt, List.getD_eq_default _ _ past]
  exact Nat.zero_testBit _

/-- A one is inside: `bit / 8 < octets.length`. -/
theorem lt_length_of_bitAt (one : bitAt octets bit = true) : bit / 8 < octets.length := by
  by_contra past
  rw [bitAt_of_length_le (Nat.le_of_not_lt past)] at one
  cases one

/-! ## Zeros at the end -/

/-- Past the end there are only zeros, so that more of them change nothing. -/
theorem getD_append_zeros (octets : Bytes) (count index : Nat) :
    (octets ++ List.replicate count 0).getD index 0 = octets.getD index 0 := by
  rcases Nat.lt_or_ge index octets.length with inside | past
  · rw [List.getD_append _ _ _ _ inside]
  · rw [List.getD_append_right _ _ _ _ past, List.getD_eq_default _ _ past]
    rcases Nat.lt_or_ge (index - octets.length) count with padding | beyond
    · exact List.getD_replicate _ padding
    · exact List.getD_eq_default _ _ (by rwa [List.length_replicate])

/-- Zeros at the end, `List.replicate count 0`, change no bit. -/
theorem bitAt_append_zeros (octets : Bytes) (count bit : Nat) :
    bitAt (octets ++ List.replicate count 0) bit = bitAt octets bit := by
  rw [bitAt, getD_append_zeros, bitAt]

/-- Trimming takes zeros off the end: `octets = trimZeros octets ++ List.replicate count 0`. -/
theorem exists_trimZeros_append (octets : Bytes) :
    ∃ count, octets = trimZeros octets ++ List.replicate count 0 := by
  refine ⟨(octets.reverse.takeWhile (· == 0)).length, ?_⟩
  have zeros : octets.reverse.takeWhile (· == 0) =
      List.replicate (octets.reverse.takeWhile (· == 0)).length 0 :=
    List.eq_replicate_of_mem fun byte taken => by simpa using List.mem_takeWhile_imp taken
  have parts := congrArg List.reverse
    (List.takeWhile_append_dropWhile (p := (· == (0 : UInt8))) (l := octets.reverse))
  rw [List.reverse_append, List.reverse_reverse, zeros, List.reverse_replicate] at parts
  exact parts.symm

/-- Zeros at the end are all trimmed. -/
theorem trimZeros_append_zeros (octets : Bytes) (count : Nat) :
    trimZeros (octets ++ List.replicate count 0) = trimZeros octets := by
  rw [trimZeros, List.reverse_append, List.reverse_replicate,
    List.dropWhile_append_of_pos fun byte zero => by simpa using List.eq_of_mem_replicate zero,
    trimZeros]

/-- Trimming changes no bit: `bitAt (trimZeros octets) bit = bitAt octets bit`. -/
theorem bitAt_trimZeros (octets : Bytes) (bit : Nat) :
    bitAt (trimZeros octets) bit = bitAt octets bit := by
  obtain ⟨count, zeros⟩ := exists_trimZeros_append octets
  conv_rhs => rw [zeros, bitAt_append_zeros]

/-- A byte string with a one in its last byte does not end in a zero. -/
theorem getLast?_ne_of_bitAt (one : bitAt octets bit = true) (last : octets.length ≤ bit / 8 + 1) :
    octets.getLast? ≠ some 0 := by
  intro ended
  have inside := lt_length_of_bitAt one
  have byte : octets.length - 1 = bit / 8 := by omega
  rw [List.getLast?_eq_getElem?, byte] at ended
  rw [bitAt, List.getD_eq_getElem?_getD, ended] at one
  exact absurd one (by simp)

/-- A byte string that does not end in a zero has no zeros to trim: `trimZeros octets = octets`. -/
theorem trimZeros_eq_self (trimmed : octets.getLast? ≠ some 0) : trimZeros octets = octets := by
  obtain ⟨count, zeros⟩ := exists_trimZeros_append octets
  cases count with
  | zero => simpa using zeros.symm
  | succ count =>
      rw [zeros, List.replicate_succ', ← List.append_assoc, List.getLast?_concat] at trimmed
      exact absurd rfl trimmed

/-! ## Byte strings that end in no zero -/

/-- Byte strings with the same bits have the same bytes, zeros past their ends: `octets.getD index 0
= others.getD index 0`. -/
theorem getD_eq_of_bitAt_eq (same : ∀ bit, bitAt octets bit = bitAt others bit) (index : Nat) :
    octets.getD index 0 = others.getD index 0 := by
  apply octet_eq_of_testBit_eq
  intro place low
  rw [← bitAt_add octets index low, ← bitAt_add others index low, same]

/-- Of two byte strings with the same bits, the one that ends in no zero is not longer. -/
theorem length_le_of_bitAt_eq (trimmed : octets.getLast? ≠ some 0)
    (same : ∀ bit, bitAt octets bit = bitAt others bit) : octets.length ≤ others.length := by
  by_contra longer
  -- The last byte would lie past the end of the other byte string, where there are only zeros.
  apply trimmed
  have inside : octets.length - 1 < octets.length := by omega
  have zero : octets.getD (octets.length - 1) 0 = 0 := by
    rw [getD_eq_of_bitAt_eq same, List.getD_eq_default _ _ (by omega)]
  rw [List.getLast?_eq_getElem?, List.getElem?_eq_getElem inside, ← zero,
    List.getD_eq_getElem _ _ inside]

/-- **Byte strings that end in no zero are told apart by their bits**, `bitAt octets` and `bitAt
others`. -/
theorem eq_of_bitAt_eq (trimmed : octets.getLast? ≠ some 0) (trimmed' : others.getLast? ≠ some 0)
    (same : ∀ bit, bitAt octets bit = bitAt others bit) : octets = others := by
  have long := length_le_of_bitAt_eq trimmed same
  have short := length_le_of_bitAt_eq trimmed' fun bit => (same bit).symm
  refine List.ext_getElem (Nat.le_antisymm long short) fun index inside inside' => ?_
  have bytes := getD_eq_of_bitAt_eq same index
  rwa [List.getD_eq_getElem _ _ inside, List.getD_eq_getElem _ _ inside'] at bytes

/-! ## Masks -/

/-- A mask is a power of two: `2 ^ (bit % 8)`. -/
theorem toNat_bitMask (bit : Nat) : (bitMask bit).toNat = 2 ^ (bit % 8) := by
  have each : ∀ place < 8, ((1 : UInt8) <<< UInt8.ofNat place).toNat = 2 ^ place := by decide
  exact each _ (Nat.mod_lt bit (by decide))

/-- The bits of a mask. -/
theorem testBit_bitMask (bit place : Nat) :
    (bitMask bit).toNat.testBit place = decide (bit % 8 = place) := by
  rw [toNat_bitMask, Nat.testBit_two_pow]

/-- The bits of the byte that a mask leaves out. -/
theorem testBit_not_bitMask (bit : Nat) (low : place < 8) :
    (~~~bitMask bit).toNat.testBit place = !decide (bit % 8 = place) := by
  have each : ∀ masked < 8, ∀ place < 8,
      (~~~((1 : UInt8) <<< UInt8.ofNat masked)).toNat.testBit place = !decide (masked = place) := by
    decide
  exact each _ (Nat.mod_lt bit (by decide)) place low

/-- A mask tests its bit: `octet &&& bitMask bit` is zero if the bit is. -/
theorem and_bitMask_bne_zero (octet : UInt8) (bit : Nat) :
    (octet &&& bitMask bit != 0) = octet.toNat.testBit (bit % 8) := by
  -- What the mask leaves is the bit itself, at its place.
  have masked : (octet &&& bitMask bit).toNat =
      (octet.toNat.testBit (bit % 8)).toNat * 2 ^ (bit % 8) := by
    rw [UInt8.toNat_and, toNat_bitMask, Nat.and_two_pow]
  rw [Bool.eq_iff_iff, bne_iff_ne, ← UInt8.toNat_inj.ne, masked]
  cases octet.toNat.testBit (bit % 8) <;> simp

/-- The bits after one byte has changed. -/
theorem bitAt_modify (octets : Bytes) (change : UInt8 → UInt8) (inside : index < octets.length)
    (bit : Nat) :
    bitAt (octets.modify index change) bit =
      if bit / 8 = index then (change (octets.getD index 0)).toNat.testBit (bit % 8)
      else bitAt octets bit := by
  unfold bitAt
  rw [List.getD_eq_getElem?_getD, List.getElem?_modify]
  by_cases same : bit / 8 = index
  · rw [if_pos same, same, List.getElem?_eq_getElem inside, List.getD_eq_getElem _ _ inside]
    simp
  · simp [if_neg same, Ne.symm same, List.getD_eq_getElem?_getD]

/-- Putting a mask into its byte by `|||` makes its bit one and changes no other. -/
theorem bitAt_modify_or (inside : bit / 8 < octets.length) (place : Nat) :
    bitAt (octets.modify (bit / 8) (· ||| bitMask bit)) place =
      (decide (place = bit) || bitAt octets place) := by
  rw [bitAt_modify octets _ inside]
  by_cases same : place / 8 = bit / 8
  · have place_eq : place = bit ↔ bit % 8 = place % 8 := by omega
    rw [if_pos same, UInt8.toNat_or, Nat.testBit_or, testBit_bitMask, ← decide_eq_decide.2 place_eq,
      Bool.or_comm, bitAt, same]
  · have place_ne : place ≠ bit := by omega
    rw [if_neg same, decide_eq_false place_ne, Bool.false_or]

/-- Taking a mask out of its byte by `&&& ~~~` makes its bit zero and changes no other. -/
theorem bitAt_modify_and_not (inside : bit / 8 < octets.length) (place : Nat) :
    bitAt (octets.modify (bit / 8) (· &&& ~~~bitMask bit)) place =
      (!decide (place = bit) && bitAt octets place) := by
  rw [bitAt_modify octets _ inside]
  by_cases same : place / 8 = bit / 8
  · have place_eq : place = bit ↔ bit % 8 = place % 8 := by omega
    rw [if_pos same, UInt8.toNat_and, Nat.testBit_and,
      testBit_not_bitMask bit (Nat.mod_lt _ (by decide)), ← decide_eq_decide.2 place_eq,
      Bool.and_comm, bitAt, same]
  · have place_ne : place ≠ bit := by omega
    rw [if_neg same, decide_eq_false place_ne, Bool.not_false, Bool.true_and]

/-! ## The number that a byte string writes -/

/-- The bits after the first byte are those of the rest, at `bit - 8`. -/
theorem bitAt_cons (octet : UInt8) (octets : Bytes) (bit : Nat) :
    bitAt (octet :: octets) bit =
      if bit < 8 then octet.toNat.testBit bit else bitAt octets (bit - 8) := by
  unfold bitAt
  split
  · rename_i low
    rw [Nat.div_eq_of_lt low, Nat.mod_eq_of_lt low, List.getD_cons_zero]
  · rename_i high
    obtain ⟨rest, rfl⟩ := Nat.exists_eq_add_of_le (Nat.le_of_not_lt high)
    rw [Nat.add_sub_cancel_left, Nat.add_div_left _ (by decide), List.getD_cons_succ,
      Nat.add_mod_left]

/-- **The bits of the number that a byte string writes, highest byte first, are those of the byte
string from its other end**, `bitAt bytes.reverse bit`. -/
theorem testBit_ofBigEndian (bytes : Bytes) (bit : Nat) :
    (ofBigEndian bytes).testBit bit = bitAt bytes.reverse bit := by
  -- The lowest bits are in the last byte, so that the induction goes back from the end.
  induction bytes using List.reverseRecOn generalizing bit with
  | nil => simp [ofBigEndian, bitAt]
  | append_singleton front last ih =>
      have small : last.toNat < 2 ^ 8 := last.toNat_lt
      rw [ofBigEndian_append, List.reverse_concat, bitAt_cons, ← ih, Nat.mul_comm,
        show (256 : Nat) = 2 ^ 8 from rfl, Nat.testBit_two_pow_mul_add _ small]

end PeerWire
