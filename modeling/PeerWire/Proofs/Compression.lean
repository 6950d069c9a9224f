import PeerWire.Proofs.CompressedStreams

/-! # Compressing and back

What `compress` makes is decompressed to the bytes it was made of, under every limit that they keep.
The short stream is only taken when it was seen to do so; the stored one does so always, which is
shown here block by block. -/

namespace PeerWire

namespace Deflate

/-! ## Numbers of whole bytes -/

/-- Reading as many bits as are pending gives the number they spell, `ofBits pending`. -/
theorem BitReader.bits_pending (pending : List Bool) (bytes : Bytes) :
    BitReader.bits pending.length ⟨pending, bytes⟩ = .ok (ofBits pending, ⟨[], bytes⟩) := by
  induction pending with
  | nil => rfl
  | cons bit pending ih =>
      rw [List.length_cons, bits]
      simp only [nextBit, ih, ofBits]

/-- Eight bits from a byte border are a byte. -/
theorem BitReader.bits_octet (byte : UInt8) (bytes : Bytes) :
    BitReader.bits 8 ⟨[], byte :: bytes⟩ = .ok (byte.toNat, ⟨[], bytes⟩) := by
  have rest : BitReader.bits 7 ⟨upperBits byte, bytes⟩ = _ := bits_pending (upperBits byte) bytes
  have whole : (byte.toNat.testBit 0).toNat + 2 * ofBits (upperBits byte) = byte.toNat :=
    ofBits_byteBits byte
  rw [bits]
  simp only [nextBit, rest, whole]

/-- A number of `low + high` bits is its low bits `a` and its high bits `b`: `a + 2 ^ low * b`. -/
theorem BitReader.bits_add {low high : Nat} {reader middle next : BitReader} {a b : Nat}
    (first : reader.bits low = .ok (a, middle)) (second : middle.bits high = .ok (b, next)) :
    reader.bits (low + high) = .ok (a + 1 <<< low * b, next) := by
  induction low generalizing reader a with
  | zero =>
      obtain ⟨rfl, rfl⟩ := Prod.mk.inj (Except.ok.inj first)
      simpa using second
  | succ low ih =>
      rw [bits] at first
      split at first
      · cases first
      · rename_i bit after hbit
        split at first
        · cases first
        · rename_i rest last hrest
          obtain ⟨rfl, rfl⟩ := Prod.mk.inj (Except.ok.inj first)
          -- The number splits off its lowest bit, which the low part splits off as well.
          rw [Nat.add_right_comm, bits]
          simp only [hbit, ih hrest]
          rw [Nat.shiftLeft_succ, Nat.mul_add, Nat.add_assoc, Nat.mul_assoc]

/-- A number of two bytes is read as it was written, the low byte first, if `value < 65536`. -/
theorem BitReader.bits_littleEndian16 {value : Nat} (small : value < 65536) (bytes : Bytes) :
    BitReader.bits 16 ⟨[], littleEndian16 value ++ bytes⟩ = .ok (value, ⟨[], bytes⟩) := by
  have run := bits_add (bits_octet (UInt8.ofNat value) (UInt8.ofNat (value / 256) :: bytes))
    (bits_octet (UInt8.ofNat (value / 256)) bytes)
  have whole : (UInt8.ofNat value).toNat + 1 <<< 8 * (UInt8.ofNat (value / 256)).toNat = value := by
    have eight : 1 <<< 8 = 256 := rfl
    rw [UInt8.toNat_ofNat', UInt8.toNat_ofNat', eight]
    omega
  rw [whole] at run
  exact run

/-! ## Stored blocks -/

/-- After its header a stored block appends its content: the result is `appendBytes out content`. -/
theorem inflateStored_content {limit : Nat} {content : Bytes} {out : ByteArray}
    (short : content.length ≤ maxStoredSize) (small : out.size + content.length ≤ limit)
    (pending : List Bool) (rest : Bytes) :
    inflateStored limit ⟨pending, littleEndian16 content.length ++
        (littleEndian16 (maxStoredSize - content.length) ++ (content ++ rest))⟩ out =
      .ok (appendBytes out content, .ofBytes rest) := by
  have border : maxStoredSize = 65535 := rfl
  unfold inflateStored
  simp only [BitReader.align]
  rw [BitReader.bits_littleEndian16 (by omega)]
  simp only
  rw [BitReader.bits_littleEndian16 (by omega)]
  simp only
  rw [if_pos (by omega)]
  refine copyStored_eq_ok_iff.2 ⟨content, rest, rfl, rfl, rfl, rfl, .inr ?_⟩
  rw [size_appendBytes]
  exact small

/-- A stored block appends its content, and ends the stream if it is marked as the last. -/
theorem inflateBlocks_storedBlock {limit : Nat} {content : Bytes} {out : ByteArray}
    (short : content.length ≤ maxStoredSize) (small : out.size + content.length ≤ limit)
    (isLast : Bool) (rest : Bytes) :
    inflateBlocks limit (.ofBytes (storedBlock isLast content ++ rest)) out =
      if isLast then .ok (appendBytes out content, .ofBytes rest)
      else inflateBlocks limit (.ofBytes rest) (appendBytes out content) := by
  have header (tail : Bytes) :
      (BitReader.ofBytes ((if isLast then 1 else 0) :: tail)).bits 3 =
        .ok (isLast.toNat, ⟨List.replicate 5 false, tail⟩) := by
    cases isLast <;> rfl
  have kind : BlockKind.ofNat? (isLast.toNat / 2) = some .stored := by
    cases isLast <;> rfl
  have block : inflateBlock limit .stored ⟨List.replicate 5 false, littleEndian16 content.length ++
      (littleEndian16 (maxStoredSize - content.length) ++ (content ++ rest))⟩ out =
        .ok (appendBytes out content, .ofBytes rest) :=
    inflateStored_content short small (.replicate 5 false) rest
  rw [storedBlock, List.append_assoc, List.append_assoc, List.cons_append,
    inflateBlocks_of_block (header _) kind block]
  cases isLast <;> rfl

/-- **A stream of stored blocks gives the bytes it holds**: `store bytes` is inflated to
`appendBytes out bytes`. -/
theorem inflateBlocks_store {limit : Nat} (bytes : Bytes) (out : ByteArray)
    (small : out.size + bytes.length ≤ limit) :
    inflateBlocks limit (.ofBytes (store bytes)) out =
      .ok (appendBytes out bytes, .ofBytes []) := by
  fun_induction store bytes generalizing out with
  | case1 bytes short =>
      have run := inflateBlocks_storedBlock short small true []
      rw [List.append_nil] at run
      exact run
  | case2 bytes long ih =>
      have head : (bytes.take maxStoredSize).length = maxStoredSize :=
        List.length_take_of_le (Nat.le_of_not_le long)
      rw [inflateBlocks_storedBlock (Nat.le_of_eq head) (by rw [head]; omega) false, ih]
      · rw [← appendBytes_append, List.take_append_drop]
        rfl
      · rw [size_appendBytes, head, List.length_drop]
        omega

/-- A stream of stored blocks is longer than its content by five bytes for each block, which
`bytes.length / 8 + 58` allows for. -/
theorem length_store_le (bytes : Bytes) :
    (store bytes).length ≤ bytes.length + bytes.length / 8 + 58 := by
  have five (isLast : Bool) (content : Bytes) :
      (storedBlock isLast content).length = 5 + content.length := by
    simp [storedBlock, littleEndian16]
    omega
  have border : maxStoredSize = 65535 := rfl
  fun_induction store bytes with
  | case1 bytes short =>
      rw [five]
      omega
  | case2 bytes long ih =>
      rw [List.length_append, five, List.length_take_of_le (Nat.le_of_not_le long)]
      rw [List.length_drop] at ih
      omega

end Deflate

open Deflate

namespace Zlib

/-- The checksum of some bytes fits into four: `adler content < 2 ^ 32`. -/
theorem adler_lt (content : Bytes) : adler content < byteStringCount 4 := by
  have low := Nat.mod_lt (lowSum content) (show 65521 > 0 by decide)
  have high := Nat.mod_lt (highSum content) (show 65521 > 0 by decide)
  have count : byteStringCount 4 = 4294967296 := rfl
  rw [adler, count]
  omega

/-! ## Compressing -/

/-- The stream of stored blocks is a complete stream of the bytes: `Holds (wrap bytes (store bytes))
bytes`. -/
theorem holds_wrap_store (bytes : Bytes) : Holds (wrap bytes (store bytes)) bytes := by
  have fits : ByteArray.empty.size + bytes.length ≤ bytes.length := Nat.le_of_eq (Nat.zero_add _)
  have given := inflateBlocks_store bytes .empty fits
  refine ⟨0x78, 0x9C, store bytes, bigEndian 4 (adler bytes), ?_, isHeader_iff.1 (by decide),
    gives_iff.2 ⟨bytes.length, _, given, rfl⟩, spells_bigEndian (adler_lt bytes)⟩
  rw [wrap, value_foldl_push]
  simp

/-- What `compress` makes starts with a complete stream of the bytes. -/
theorem holds_compress (bytes : Bytes) :
    ∃ stream junk, compress bytes = stream ++ junk ∧ Holds stream bytes := by
  rw [compress]
  split
  · rename_i checked
    -- The short stream is only here because it was seen to give the bytes.
    rw [Bool.and_eq_true] at checked
    have checked := checked.2
    unfold gives at checked
    split at checked
    · cases checked
    · rename_i out run
      have same : out.data.toList = bytes := eq_of_beq checked
      rw [← same]
      rw [← same] at run
      exact (decompress_eq_ok_iff.1 run).2
  · exact ⟨_, [], (List.append_nil _).symm, holds_wrap_store bytes⟩

/-- Compressing makes a byte string no longer than `maxSize bytes.length`. -/
theorem length_compress_le (bytes : Bytes) : (compress bytes).length ≤ maxSize bytes.length := by
  rw [compress]
  split
  · rename_i checked
    rw [Bool.and_eq_true] at checked
    exact of_decide_eq_true checked.1
  · have stored := length_store_le bytes
    rw [wrap, List.length_append, List.length_append, length_bigEndian, maxSize]
    simp only [List.length_cons, List.length_nil]
    omega

/-- A compressor whose streams are decompressed to the bytes they were made of: `decompress limit
(compress bytes)` gives `bytes` where the limit allows it. -/
def Faithful (compress : Bytes → Bytes) : Prop :=
  ∀ bytes limit, bytes.length ≤ limit →
    decompress limit (compress bytes) = .ok ⟨bytes.toArray⟩

/-- **Compressing loses nothing**: `compress` is `Faithful`. -/
theorem faithful_compress : Faithful compress := by
  intro bytes limit small
  obtain ⟨stream, junk, whole, held⟩ := holds_compress bytes
  exact decompress_eq_ok_iff.2 ⟨small, stream, junk, whole, held⟩

end Zlib

end PeerWire
