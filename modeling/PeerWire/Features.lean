import PeerWire.Codec.Decoder

/-! # Feature vectors

A feature vector is a finite set of bit numbers. Each feature owns a pair of bits: the even one
says that it is required, the odd one that it is supported. On the wire the bits are a number,
most significant byte first and without leading zero bytes; inside, the bytes are kept lowest
first and never end in a zero byte, so equal sets are equal vectors. -/

namespace PeerWire

/-- The features that have a name. -/
inductive Feature where
  /-- Proofs of data loss on reconnection. -/
  | dataLossProtect
  /-- A dump of routing data when a connection opens. -/
  | initialRoutingSync
  /-- A shutdown script fixed when a channel opens. -/
  | upfrontShutdownScript
  /-- Queries for routing data. -/
  | gossipQueries
  deriving DecidableEq, Repr

namespace Feature

/-- The named features, by their bits. -/
def all : List Feature :=
  [.dataLossProtect, .initialRoutingSync, .upfrontShutdownScript, .gossipQueries]

/-- The bit that requires a feature: `0`, `2`, `4` or `6`. -/
def requiredBit : Feature → Nat
  | .dataLossProtect => 0
  | .initialRoutingSync => 2
  | .upfrontShutdownScript => 4
  | .gossipQueries => 6

/-- The bit that supports a feature without requiring it: `feature.requiredBit + 1`. -/
def optionalBit (feature : Feature) : Nat := feature.requiredBit + 1

/-- The name of a feature. -/
def name : Feature → String
  | .dataLossProtect => "data-loss-protect"
  | .initialRoutingSync => "initial-routing-sync"
  | .upfrontShutdownScript => "upfront-shutdown-script"
  | .gossipQueries => "gossip-queries"

/-- The feature that owns a bit: its `requiredBit` is `bit / 2 * 2`. -/
def ofBit? (bit : Nat) : Option Feature :=
  all.find? fun feature => feature.requiredBit = bit / 2 * 2

end Feature

/-- A finite set of bit numbers. -/
structure FeatureVector where
  /-- Byte `i` holds the bits from `8 * i` on, lowest first. -/
  octets : Bytes
  /-- The last byte is not zero. -/
  trimmed : octets.getLast? ≠ some 0
  deriving DecidableEq

namespace FeatureVector

/-- The vector with the given bytes, lowest first, whatever zeros they end in. -/
def ofOctets (octets : Bytes) : FeatureVector := ⟨trimZeros octets, getLast?_trimZeros octets⟩

/-- The empty set. -/
def empty : FeatureVector := ⟨[], by simp⟩

/-- The set written by a byte string, highest byte first. -/
def ofBytes (bytes : Bytes) : FeatureVector := ofOctets bytes.reverse

/-- The bytes of a set, highest first: `vector.octets.reverse`. -/
def toBytes (vector : FeatureVector) : Bytes := vector.octets.reverse

/-- The byte in which only the given bit is set: `1 <<< bit % 8`. -/
def bitMask (bit : Nat) : UInt8 := 1 <<< UInt8.ofNat (bit % 8)

/-- Whether a bit is in the set: it is one in the byte `bit / 8`. -/
def contains (vector : FeatureVector) (bit : Nat) : Bool :=
  ((vector.octets[bit / 8]?).getD 0) &&& bitMask bit != 0

/-- The set with a bit. -/
def insert (vector : FeatureVector) (bit : Nat) : FeatureVector :=
  let padded := vector.octets ++ List.replicate (bit / 8 + 1 - vector.octets.length) 0
  ofOctets (padded.modify (bit / 8) (· ||| bitMask bit))

/-- The set without a bit. -/
def erase (vector : FeatureVector) (bit : Nat) : FeatureVector :=
  ofOctets (vector.octets.modify (bit / 8) (· &&& ~~~bitMask bit))

/-- The set of the given bits: each is put in by `insert`. -/
def ofBits (bits : List Nat) : FeatureVector := bits.foldl insert empty

/-- The bits of one byte, from the given number on, in ascending order. -/
def octetBits (start : Nat) (octet : UInt8) : List Nat :=
  (List.range 8).filterMap fun bit => if octet.toNat.testBit bit then some (start + bit) else none

/-- The bits of the set, in ascending order. -/
def bits (vector : FeatureVector) : List Nat :=
  vector.octets.zipIdx.flatMap fun octet => octetBits (8 * octet.2) octet.1

/-- The number of bytes of the set: `vector.octets.length`. -/
def byteLength (vector : FeatureVector) : Nat := vector.octets.length

/-- Whether the set is empty. -/
def isEmpty (vector : FeatureVector) : Bool := vector.octets.isEmpty

/-- The highest bit. -/
def max? (vector : FeatureVector) : Option Nat :=
  vector.octets.getLast?.map fun last => (vector.octets.length - 1) * 8 + last.toNat.log2

/-- Whether a feature is supported or required. -/
def supports (vector : FeatureVector) (feature : Feature) : Bool :=
  vector.contains feature.requiredBit || vector.contains feature.optionalBit

/-- Whether a feature is required. -/
def requires (vector : FeatureVector) (feature : Feature) : Bool :=
  vector.contains feature.requiredBit

/-- The bits that require features without a name. -/
def foreignRequirements (vector : FeatureVector) : List Nat :=
  vector.bits.filter fun bit => bit % 2 = 0 && (Feature.ofBit? bit).isNone

/-- The bits between braces, as in `{0, 5}`. -/
def describe (vector : FeatureVector) : String :=
  "\x7b" ++ ", ".intercalate (vector.bits.map toString) ++ "\x7d"

/-- The wire form: a two-byte length and `vector.toBytes`. -/
def encode (vector : FeatureVector) : Bytes :=
  Wire.length vector.octets.length ++ vector.toBytes

/-- The length of the wire form: `2 + vector.octets.length`. -/
def encodedLength (vector : FeatureVector) : Nat := 2 + vector.octets.length

/-- Takes a vector off a byte string; leading zero bytes do not matter. -/
def decoder : Decoder FeatureVector := ofBytes <$> Decoder.bytes

end FeatureVector

end PeerWire
