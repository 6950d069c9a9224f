import PeerWire.Codec.Decoder
import PeerWire.Text.Hex

/-! # Blobs

Byte strings of a fixed width whose content the protocol layer never looks into: keys,
signatures, hashes and identifiers. Blobs of different kinds are different types. -/

namespace PeerWire

/-- What a blob is for. -/
inductive BlobKind where
  /-- Names a channel, before or after its funding is known. -/
  | channelId
  /-- Names a chain by the hash of its first block. -/
  | chainHash
  /-- A SHA-256 digest. -/
  | sha256
  /-- What unlocks a payment. -/
  | paymentPreimage
  /-- Names a transaction. -/
  | txid
  /-- A per-commitment secret. -/
  | secret
  /-- A compressed point. -/
  | publicKey
  /-- A compact signature. -/
  | signature
  /-- A layered routing packet. -/
  | onionPacket
  /-- The name a node gives itself. -/
  | nodeAlias
  /-- Red, green and blue. -/
  | rgbColor
  deriving DecidableEq, Repr

namespace BlobKind

/-- All kinds. -/
def all : List BlobKind :=
  [.channelId, .chainHash, .sha256, .paymentPreimage, .txid, .secret, .publicKey, .signature,
    .onionPacket, .nodeAlias, .rgbColor]

/-- The number of bytes of a blob: `32` for hashes and ids, `33` for keys. -/
def width : BlobKind → Nat
  | .channelId | .chainHash | .sha256 | .paymentPreimage | .txid | .secret | .nodeAlias => 32
  | .publicKey => 33
  | .signature => 64
  | .onionPacket => 1366
  | .rgbColor => 3

/-- The name shown before the digits of a blob. -/
def label : BlobKind → String
  | .channelId => "ChannelId"
  | .chainHash => "ChainHash"
  | .sha256 => "Sha256"
  | .paymentPreimage => "PaymentPreimage"
  | .txid => "Txid"
  | .secret => "Secret"
  | .publicKey => "PublicKey"
  | .signature => "Signature"
  | .onionPacket => "OnionPacket"
  | .nodeAlias => "NodeAlias"
  | .rgbColor => "RgbColor"

end BlobKind

/-- A blob of a kind. -/
structure Blob (kind : BlobKind) where
  /-- Its bytes. -/
  octets : Octets kind.width
  deriving DecidableEq

/-- Names a channel. -/
abbrev ChannelId := Blob .channelId

/-- A public key. -/
abbrev PublicKey := Blob .publicKey

/-- A signature. -/
abbrev Signature := Blob .signature

/-- The name a node gives itself. -/
abbrev NodeAlias := Blob .nodeAlias

namespace Blob

variable {kind : BlobKind}

/-- The bytes of a blob: `kind.width` of them. -/
def bytes (blob : Blob kind) : Bytes := blob.octets.1

/-- The blob of zeros. -/
def zero : Blob kind := ⟨.zero kind.width⟩

/-- The blob with the given bytes, if `bytes.length = kind.width`. -/
def ofBytes? (bytes : Bytes) : Option (Blob kind) :=
  (Octets.ofBytes? kind.width bytes).map Blob.mk

/-- The blob written by hexadecimal digits. -/
def ofHex (text : String) : Except Hex.Error (Blob kind) :=
  match Hex.decodeExact kind.width text with
  | .error error => .error error
  | .ok bytes =>
      match ofBytes? bytes with
      | some blob => .ok blob
      | none => .error .wrongLength

/-- The hexadecimal digits of a blob. -/
def toHex (blob : Blob kind) : String := Hex.encode blob.bytes

/-- The digits between brackets, behind `kind.label`. -/
def describe (blob : Blob kind) : String := s!"{kind.label}({blob.toHex})"

/-- Takes a blob off a byte string. -/
def decoder : Decoder (Blob kind) := Blob.mk <$> Decoder.take kind.width

/-- A blob has as many bytes as its kind says: `blob.bytes.length = kind.width`. -/
@[simp] theorem length_bytes (blob : Blob kind) : blob.bytes.length = kind.width :=
  blob.octets.2

end Blob

/-- The id of a channel whose funding is output `index` of a transaction: the transaction's id
with the index added without carry into its last two bytes. -/
def ChannelId.ofOutpoint (txid : Blob .txid) (index : UInt16) : ChannelId where
  octets := ⟨txid.bytes.take 30 ++
      (txid.bytes.drop 30).zipWith (· ^^^ ·) (bigEndian 2 index.toNat), by
    simp [BlobKind.width]⟩

/-! ## Colours -/

/-- The colour with the components `red`, `green` and `blue`. -/
def Blob.ofRgb (red green blue : UInt8) : Blob .rgbColor := ⟨⟨[red, green, blue], rfl⟩⟩

end PeerWire
