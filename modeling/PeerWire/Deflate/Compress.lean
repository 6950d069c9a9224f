import PeerWire.Deflate.Block

/-! # Compressing

Two streams that give the same bytes: one that is short, and one that holds the bytes as they
are. -/

namespace PeerWire.Deflate

/-- The number whose bits are listed, least significant first: `bit + 2 * ofBits rest`. -/
def ofBits : List Bool → Nat
  | [] => 0
  | bit :: rest => bit.toNat + 2 * ofBits rest

/-- Packs bits into bytes, the last one filled up with zeros; `done` holds the bytes packed so
far, last one first. -/
def packBits (done : Bytes) (bits : List Bool) : Bytes :=
  match bits with
  | [] => done.reverse
  | bit :: rest =>
      packBits (UInt8.ofNat (ofBits ((bit :: rest).take 8)) :: done) (rest.drop 7)
  termination_by bits.length
  decreasing_by
    simp only [List.length_drop, List.length_cons]
    omega

/-- A short stream that gives the bytes. -/
def compress (bytes : Bytes) : Bytes :=
  let input : ByteArray := ⟨bytes.toArray⟩
  packBits [] (Section.bitsOfAll input 0 (sections input))

/-- The most bytes of a stored block: `65535`. -/
def maxStoredSize : Nat := 65535

/-- A number of two bytes, the low one first: `bigEndian 2` the other way round. -/
def littleEndian16 (value : Nat) : Bytes := (bigEndian 2 value).reverse

/-- A stored block from a byte border on: its mark, `content.length`, the complement of that, and
`content`. -/
def storedBlock (isLast : Bool) (content : Bytes) : Bytes :=
  (if isLast then 1 else 0) :: littleEndian16 content.length ++
    littleEndian16 (maxStoredSize - content.length) ++ content

/-- A stream of stored blocks that gives the bytes, each of `maxStoredSize` bytes but the last. -/
def store (bytes : Bytes) : Bytes :=
  if bytes.length ≤ maxStoredSize then storedBlock true bytes
  else storedBlock false (bytes.take maxStoredSize) ++ store (bytes.drop maxStoredSize)
  termination_by bytes.length
  decreasing_by
    rw [List.length_drop]
    simp only [maxStoredSize] at *
    omega

end PeerWire.Deflate
