import PeerWire.Bytes

/-! # Reading bits

The bits of a compressed stream, the least significant bit of each byte first. The view
`BitReader.toBits` lists the bits not read yet: reading one bit takes the head of that list. -/

namespace PeerWire.Deflate

/-- Why a compressed stream gives no bytes. -/
inductive Fault where
  /-- The stream breaks a rule of the format. -/
  | corrupt
  /-- The input ends before the stream does. -/
  | incomplete
  /-- The stream gives more bytes than allowed. -/
  | overLimit
  deriving DecidableEq, Repr

/-- The bits of a byte after the lowest one, from low to high. -/
def upperBits (byte : UInt8) : List Bool :=
  [1, 2, 3, 4, 5, 6, 7].map byte.toNat.testBit

/-- The bits of a byte, least significant first. -/
def byteBits (byte : UInt8) : List Bool :=
  byte.toNat.testBit 0 :: upperBits byte

/-- A byte has eight bits: `(byteBits byte).length = 8`. -/
@[simp] theorem length_byteBits (byte : UInt8) : (byteBits byte).length = 8 := rfl

/-- What is left of a stream: the unread bits of the byte being read, and the bytes after it. -/
structure BitReader where
  /-- The unread bits of the current byte. -/
  pending : List Bool
  /-- The bytes after the current one. -/
  bytes : Bytes
  deriving Repr

namespace BitReader

/-- A reader at the first bit of a byte string: `⟨[], bytes⟩`. -/
def ofBytes (bytes : Bytes) : BitReader := ⟨[], bytes⟩

/-- The bits not read yet: `pending`, and those of `bytes`. -/
def toBits (reader : BitReader) : List Bool :=
  reader.pending ++ reader.bytes.flatMap byteBits

/-- The number of bits not read yet: `pending.length + 8 * bytes.length`. -/
def remaining (reader : BitReader) : Nat :=
  reader.pending.length + 8 * reader.bytes.length

/-- Reads one bit. -/
def nextBit (reader : BitReader) : Except Fault (Bool × BitReader) :=
  match reader with
  | ⟨bit :: pending, bytes⟩ => .ok (bit, ⟨pending, bytes⟩)
  | ⟨[], byte :: bytes⟩ => .ok (byte.toNat.testBit 0, ⟨upperBits byte, bytes⟩)
  | ⟨[], []⟩ => .error .incomplete

/-- Reads a number of `width` bits, least significant bit first. -/
def bits : (width : Nat) → BitReader → Except Fault (Nat × BitReader)
  | 0, reader => .ok (0, reader)
  | width + 1, reader =>
      match reader.nextBit with
      | .error fault => .error fault
      | .ok (bit, reader) =>
          match bits width reader with
          | .error fault => .error fault
          | .ok (value, reader) => .ok (bit.toNat + 2 * value, reader)

/-- Drops the unread bits of the current byte. -/
def align (reader : BitReader) : BitReader := ⟨[], reader.bytes⟩

/-- A reader has as many bits left as its view lists: `reader.toBits.length`. -/
theorem remaining_eq_length_toBits (reader : BitReader) :
    reader.remaining = reader.toBits.length := by
  unfold remaining toBits
  rw [List.length_append]
  congr 1
  induction reader.bytes with
  | nil => rfl
  | cons byte rest ih => simp [← ih]; omega

/-- Reading a bit takes the head of the view: `reader.toBits = bit :: next.toBits`. -/
theorem toBits_of_nextBit {reader next : BitReader} {bit : Bool}
    (h : reader.nextBit = .ok (bit, next)) : reader.toBits = bit :: next.toBits := by
  unfold nextBit at h
  split at h
  · cases h
    rfl
  · cases h
    simp [toBits, byteBits]
  · cases h

/-- Reading a bit leaves one bit fewer: `next.remaining < reader.remaining`. -/
theorem remaining_of_nextBit {reader next : BitReader} {bit : Bool}
    (h : reader.nextBit = .ok (bit, next)) : next.remaining < reader.remaining := by
  rw [remaining_eq_length_toBits, remaining_eq_length_toBits, toBits_of_nextBit h]
  simp

/-- Reading a number leaves no more bits than there were: `next.remaining ≤ reader.remaining`. -/
theorem remaining_of_bits {width : Nat} {reader next : BitReader} {value : Nat}
    (h : reader.bits width = .ok (value, next)) : next.remaining ≤ reader.remaining := by
  induction width generalizing reader value next with
  | zero =>
      obtain ⟨rfl, rfl⟩ := by simpa [bits] using h
      exact Nat.le_refl _
  | succ width ih =>
      simp only [bits] at h
      split at h
      · simp at h
      · rename_i hbit
        split at h
        · simp at h
        · rename_i hrest
          obtain ⟨rfl, rfl⟩ := by simpa using h
          exact Nat.le_of_lt (Nat.lt_of_le_of_lt (ih hrest) (remaining_of_nextBit hbit))

/-- Reading a number of `width + 1` bits leaves fewer bits. -/
theorem remaining_of_bits_succ {width : Nat} {reader next : BitReader} {value : Nat}
    (h : reader.bits (width + 1) = .ok (value, next)) : next.remaining < reader.remaining := by
  simp only [bits] at h
  split at h
  · simp at h
  · rename_i hbit
    split at h
    · simp at h
    · rename_i hrest
      obtain ⟨rfl, rfl⟩ := by simpa using h
      exact Nat.lt_of_le_of_lt (remaining_of_bits hrest) (remaining_of_nextBit hbit)

/-- Aligning leaves no more bits than there were. -/
theorem remaining_align (reader : BitReader) : reader.align.remaining ≤ reader.remaining := by
  simp [align, remaining]

end BitReader

end PeerWire.Deflate
