/-! # Byte strings

A byte string is a list of octets. This module holds the big-endian reading and writing of
numbers, and strings of a length fixed by their type. The main facts: `bigEndian` always has
the requested length, and reading it back gives the number modulo the number of byte strings of
that length. -/

namespace PeerWire

/-- A byte string, first byte first. -/
abbrev Bytes := List UInt8

/-- A byte string of exactly `n` bytes. -/
abbrev Octets (n : Nat) := { bytes : Bytes // bytes.length = n }

/-- The `n` zero bytes. -/
def Octets.zero (n : Nat) : Octets n := ⟨List.replicate n 0, List.length_replicate⟩

/-- The octets of a byte string that has the right length, `n`. -/
def Octets.ofBytes? (n : Nat) (bytes : Bytes) : Option (Octets n) :=
  if h : bytes.length = n then some ⟨bytes, h⟩ else none

/-- The `width` low-order bytes of a number, most significant first. -/
def bigEndian : (width : Nat) → (value : Nat) → Bytes
  | 0, _ => []
  | width + 1, value => bigEndian width (value / 256) ++ [UInt8.ofNat value]

/-- The number written by a byte string, most significant byte first: each `byte` adds `value * 256
+ byte`. -/
def ofBigEndian (bytes : Bytes) : Nat :=
  bytes.foldl (fun value byte => value * 256 + byte.toNat) 0

/-- A byte string without the zero bytes at its end. -/
def trimZeros (bytes : Bytes) : Bytes :=
  (bytes.reverse.dropWhile (· == 0)).reverse

/-- The number of byte strings of a length: `2 ^ (8 * length)`. -/
def byteStringCount (length : Nat) : Nat := 1 <<< (8 * length)

/-- Big-endian forms have the requested width: `(bigEndian width value).length = width`. -/
@[simp] theorem length_bigEndian (width value : Nat) : (bigEndian width value).length = width := by
  induction width generalizing value with
  | zero => rfl
  | succ width ih => simp [bigEndian, ih]

/-- A trimmed byte string does not end in a zero byte: `getLast? ≠ some 0`. -/
theorem getLast?_trimZeros (bytes : Bytes) : (trimZeros bytes).getLast? ≠ some 0 := by
  rw [trimZeros, List.getLast?_reverse]
  intro h
  have := List.head?_dropWhile_not (· == (0 : UInt8)) bytes.reverse
  rw [h] at this
  simp at this

/-- There are byte strings of every length: `0 < byteStringCount length`. -/
theorem byteStringCount_pos (length : Nat) : 0 < byteStringCount length := by
  rw [byteStringCount, Nat.one_shiftLeft]
  exact Nat.pow_pos (by decide)

/-- One more byte gives 256 times as many byte strings: `byteStringCount length * 256`. -/
theorem byteStringCount_succ (length : Nat) :
    byteStringCount (length + 1) = byteStringCount length * 256 := by
  simp [byteStringCount, Nat.one_shiftLeft, Nat.mul_add, Nat.pow_add]

/-- The last byte carries the weight one: `ofBigEndian bytes * 256 + byte.toNat`. -/
theorem ofBigEndian_append (bytes : Bytes) (byte : UInt8) :
    ofBigEndian (bytes ++ [byte]) = ofBigEndian bytes * 256 + byte.toNat := by
  simp [ofBigEndian]

/-- Reading a big-endian form gives the number modulo the number of forms: `value % byteStringCount
width`. -/
theorem ofBigEndian_bigEndian (width value : Nat) :
    ofBigEndian (bigEndian width value) = value % byteStringCount width := by
  induction width generalizing value with
  | zero => simp [bigEndian, ofBigEndian, byteStringCount, Nat.mod_one]
  | succ width ih =>
      rw [bigEndian, ofBigEndian_append, ih, byteStringCount_succ,
        Nat.mul_comm (byteStringCount width) 256, Nat.mod_mul, UInt8.toNat_ofNat']
      omega

/-- A byte string is the big-endian form of the number it writes: `bigEndian bytes.length
(ofBigEndian bytes) = bytes`. -/
theorem bigEndian_ofBigEndian (bytes : Bytes) :
    bigEndian bytes.length (ofBigEndian bytes) = bytes := by
  generalize h : bytes.length = width
  induction width generalizing bytes with
  | zero => simp [List.length_eq_zero_iff.1 h, bigEndian]
  | succ width ih =>
      obtain ⟨front, last, rfl⟩ : ∃ front last, bytes = front ++ [last] :=
        ⟨bytes.dropLast, bytes.getLast (by intro none; simp [none] at h),
          (List.dropLast_concat_getLast _).symm⟩
      have byte := last.toNat_lt
      have length : front.length = width := by simpa using h
      have quotient : (ofBigEndian front * 256 + last.toNat) / 256 = ofBigEndian front := by omega
      rw [bigEndian, ofBigEndian_append, quotient, ih front length]
      congr 2
      apply UInt8.toNat_inj.1
      rw [UInt8.toNat_ofNat']
      omega

/-- A byte string writes a number below the number of byte strings of its length: `ofBigEndian bytes
< byteStringCount bytes.length`. -/
theorem ofBigEndian_lt (bytes : Bytes) : ofBigEndian bytes < byteStringCount bytes.length := by
  have back := ofBigEndian_bigEndian bytes.length (ofBigEndian bytes)
  rw [bigEndian_ofBigEndian] at back
  rw [back]
  exact Nat.mod_lt _ (byteStringCount_pos _)

/-- A number is written up to the multiples of what its width can write: `value % byteStringCount
width` has the same form. -/
theorem bigEndian_mod (width value : Nat) :
    bigEndian width (value % byteStringCount width) = bigEndian width value := by
  have back := bigEndian_ofBigEndian (bigEndian width value)
  rwa [length_bigEndian, ofBigEndian_bigEndian] at back

/-- The front and the back of a wire form are those of a quotient and a remainder by
`byteStringCount back`. -/
theorem bigEndian_add (front back value : Nat) :
    bigEndian (front + back) value =
      bigEndian front (value / byteStringCount back) ++ bigEndian back value := by
  induction back generalizing value with
  | zero => simp [bigEndian, byteStringCount]
  | succ back ih =>
      rw [← Nat.add_assoc, bigEndian, ih, List.append_assoc, bigEndian, Nat.div_div_eq_div_mul,
        byteStringCount_succ, Nat.mul_comm 256]

end PeerWire
