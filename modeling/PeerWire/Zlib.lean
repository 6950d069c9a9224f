import PeerWire.Deflate.Inflate
import PeerWire.Deflate.Compress

/-! # Compressed streams with a checksum

A stream is a two-byte header, a deflate stream, and the Adler-32 checksum of the bytes it gives.
Whatever follows the checksum is not looked at. -/

namespace PeerWire.Zlib

open PeerWire.Deflate (Fault BitReader)

/-- The two running sums of the checksum. -/
structure Checksum where
  /-- One more than the sum of the bytes. -/
  low : Nat := 1
  /-- The sum of the low sums. -/
  high : Nat := 0

namespace Checksum

/-- The sums are taken modulo the largest prime below 65536. -/
def modulus : Nat := 65521

/-- Takes one more byte into account: `low + byte`, and then `high + low`, modulo `modulus`. -/
def push (sum : Checksum) (byte : UInt8) : Checksum :=
  let low := (sum.low + byte.toNat) % modulus
  ⟨low, (sum.high + low) % modulus⟩

/-- The checksum as one number: `sum.high * 65536 + sum.low`. -/
def value (sum : Checksum) : Nat := sum.high * 65536 + sum.low

end Checksum

/-- The header is a multiple of 31, names deflate with a window of at most 32768 bytes, and asks
for no dictionary. -/
def isHeader (first second : UInt8) : Bool :=
  (first.toNat * 256 + second.toNat) % 31 = 0 && second.toNat / 32 % 2 = 0 &&
    first.toNat % 16 = 8 && first.toNat / 16 ≤ 7

/-- The bytes a stream gives, unless they are more than `limit`. -/
def decompress (limit : Nat) (stream : Bytes) : Except Fault ByteArray :=
  match stream with
  | first :: second :: rest =>
      if isHeader first second then
        match Deflate.inflateBlocks limit (.ofBytes rest) .empty with
        | .error fault => .error fault
        | .ok (out, reader) =>
            match reader.bytes with
            | a :: b :: c :: d :: _ =>
                if ofBigEndian [a, b, c, d] = (out.foldl Checksum.push {}).value then .ok out
                else .error .corrupt
            | _ => .error .incomplete
      else .error .corrupt
  | _ => .error .incomplete

/-- The stream made of a deflate stream that gives the bytes: a header, `deflated`, and the
checksum. -/
def wrap (bytes deflated : Bytes) : Bytes :=
  [0x78, 0x9C] ++ deflated ++ bigEndian 4 (bytes.foldl Checksum.push {}).value

/-- A stream gives the bytes, and no more: `decompress` has them as its result. -/
def gives (stream bytes : Bytes) : Bool :=
  match decompress bytes.length stream with
  | .error _ => false
  | .ok out => out.data.toList == bytes

/-- The most bytes of a stream that gives `size` bytes: nine bits for each, and what is around
them. -/
def maxSize (size : Nat) : Nat := size + size / 8 + 64

/-- A stream that gives the bytes. The short one is taken only if it proves to do so within the
bound, so that nothing hangs on how it was found. -/
def compress (bytes : Bytes) : Bytes :=
  let stream := wrap bytes (Deflate.compress bytes)
  if stream.length ≤ maxSize bytes.length && gives stream bytes then stream
  else wrap bytes (Deflate.store bytes)

end PeerWire.Zlib
