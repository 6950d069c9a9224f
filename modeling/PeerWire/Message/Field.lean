import PeerWire.Address.Block
import PeerWire.Amount
import PeerWire.Blob
import PeerWire.Features
import PeerWire.IdList
import PeerWire.Text.Json

/-! # Fields

The types a message field can have. Each type has its values, its wire form, the length of that
form, a decoder, and the JSON value that reports show. Messages are lists of such fields, so what
holds for every type of field holds for every message. -/

namespace PeerWire

/-- The type of a field. -/
inductive FieldType where
  /-- A one-byte number. -/
  | u8
  /-- A two-byte number. -/
  | u16
  /-- A four-byte number. -/
  | u32
  /-- An eight-byte number. -/
  | u64
  /-- True or false. -/
  | flag
  /-- An amount in thousandths of a satoshi. -/
  | milliSatoshi
  /-- An amount in satoshis. -/
  | satoshi
  /-- A fee rate. -/
  | feeRate
  /-- A blob. -/
  | blob (kind : BlobKind)
  /-- A byte string after its length. -/
  | bytes
  /-- A feature vector. -/
  | features
  /-- Signatures after their number. -/
  | signatures
  /-- A short channel id. -/
  | shortChannelId
  /-- A block of addresses. -/
  | addresses
  /-- A list of short channel ids. -/
  | idList
  deriving DecidableEq, Repr

namespace FieldType

/-- The values of a field of this type. -/
@[reducible] def Value : FieldType → Type
  | .u8 => UInt8
  | .u16 => UInt16
  | .u32 => UInt32
  | .u64 => UInt64
  | .flag => Bool
  | .milliSatoshi => MilliSatoshi
  | .satoshi => Satoshi
  | .feeRate => FeeRate
  | .blob kind => Blob kind
  | .bytes => Bytes
  | .features => FeatureVector
  | .signatures => List Signature
  | .shortChannelId => ShortChannelId
  | .addresses => AddressList
  | .idList => IdList

/-- Values can be compared. -/
instance decidableEqValue : (type : FieldType) → DecidableEq type.Value
  | .u8 => inferInstanceAs (DecidableEq UInt8)
  | .u16 => inferInstanceAs (DecidableEq UInt16)
  | .u32 => inferInstanceAs (DecidableEq UInt32)
  | .u64 => inferInstanceAs (DecidableEq UInt64)
  | .flag => inferInstanceAs (DecidableEq Bool)
  | .milliSatoshi => inferInstanceAs (DecidableEq MilliSatoshi)
  | .satoshi => inferInstanceAs (DecidableEq Satoshi)
  | .feeRate => inferInstanceAs (DecidableEq FeeRate)
  | .blob kind => inferInstanceAs (DecidableEq (Blob kind))
  | .bytes => inferInstanceAs (DecidableEq Bytes)
  | .features => inferInstanceAs (DecidableEq FeatureVector)
  | .signatures => inferInstanceAs (DecidableEq (List Signature))
  | .shortChannelId => inferInstanceAs (DecidableEq ShortChannelId)
  | .addresses => inferInstanceAs (DecidableEq AddressList)
  | .idList => inferInstanceAs (DecidableEq IdList)

/-- The wire form of a value. -/
def encode : (type : FieldType) → type.Value → Bytes
  | .u8, value => bigEndian 1 value.toNat
  | .u16, value => bigEndian 2 value.toNat
  | .u32, value => bigEndian 4 value.toNat
  | .u64, value => bigEndian 8 value.toNat
  | .flag, value => Wire.flag value
  | .milliSatoshi, amount => bigEndian 8 amount.value.toNat
  | .satoshi, amount => bigEndian 8 amount.value.toNat
  | .feeRate, rate => bigEndian 4 rate.value.toNat
  | .blob _, content => content.bytes
  | .bytes, content => Wire.bytes content
  | .features, vector => vector.encode
  | .signatures, list => Wire.counted Blob.bytes list
  | .shortChannelId, id => id.encode
  | .addresses, list => list.encode
  | .idList, list => list.encode

/-- The length of the wire form of a value. -/
def encodedLength : (type : FieldType) → type.Value → Nat
  | .u8, _ => 1
  | .u16, _ => 2
  | .u32, _ => 4
  | .u64, _ => 8
  | .flag, _ => 1
  | .milliSatoshi, _ => 8
  | .satoshi, _ => 8
  | .feeRate, _ => 4
  | .blob kind, _ => kind.width
  | .bytes, content => 2 + content.length
  | .features, vector => vector.encodedLength
  | .signatures, list => 2 + list.length * BlobKind.signature.width
  | .shortChannelId, _ => ShortChannelId.width
  | .addresses, list => list.encodedLength
  | .idList, list => list.encodedLength

/-- Takes a value off a byte string. -/
def decoder : (type : FieldType) → Decoder type.Value
  | .u8 => Decoder.u8
  | .u16 => Decoder.u16
  | .u32 => Decoder.u32
  | .u64 => Decoder.u64
  | .flag => Decoder.flag
  | .milliSatoshi => MilliSatoshi.mk <$> Decoder.u64
  | .satoshi => Satoshi.mk <$> Decoder.u64
  | .feeRate => FeeRate.mk <$> Decoder.u32
  | .blob _ => Blob.decoder
  | .bytes => Decoder.bytes
  | .features => FeatureVector.decoder
  | .signatures => Decoder.counted BlobKind.signature.width Blob.decoder
  | .shortChannelId => ShortChannelId.decoder
  | .addresses => AddressList.decoder
  | .idList => IdList.decoder

/-- What a report shows of a value. -/
def toJson : (type : FieldType) → type.Value → Json
  | .u8, value => .number value.toNat
  | .u16, value => .number value.toNat
  | .u32, value => .number value.toNat
  | .u64, value => .number value.toNat
  | .flag, value => .flag value
  | .milliSatoshi, amount => .number amount.value.toNat
  | .satoshi, amount => .number amount.value.toNat
  | .feeRate, rate => .number rate.value.toNat
  | .blob _, content => .text content.toHex
  | .bytes, content => .text (Hex.encode content)
  | .features, vector => .array (vector.bits.map .number)
  | .signatures, list => .array (list.map fun signature => .text signature.toHex)
  | .shortChannelId, id => .text id.toText
  | .addresses, list => .object [
      ("addresses", .array (list.addresses.map fun address => .text address.toText)),
      ("unparsed", .text (Hex.encode list.unparsed))]
  | .idList, list => .object [
      ("encoding", .text list.encoding.name),
      ("ids", .array (list.ids.map fun id => .text id.toText))]

end FieldType

/-- A named field. -/
structure Field where
  /-- The name shown in reports and errors. -/
  name : String
  /-- Its type. -/
  type : FieldType
  deriving DecidableEq, Repr

/-- The values of some fields, in order. -/
@[reducible] def Values : List Field → Type
  | [] => Unit
  | field :: fields => field.type.Value × Values fields

namespace Values

/-- Values can be compared. -/
instance decidableEqValues : (fields : List Field) → DecidableEq (Values fields)
  | [] => inferInstanceAs (DecidableEq Unit)
  | field :: fields =>
      let _ := decidableEqValues fields
      inferInstanceAs (DecidableEq (field.type.Value × Values fields))

/-- The wire forms one after the other. -/
def encode : (fields : List Field) → Values fields → Bytes
  | [], () => []
  | field :: fields, (value, values) => field.type.encode value ++ encode fields values

/-- The length of the wire forms. -/
def encodedLength : (fields : List Field) → Values fields → Nat
  | [], () => 0
  | field :: fields, (value, values) =>
      field.type.encodedLength value + encodedLength fields values

/-- What a report shows of each field. -/
def toJson : (fields : List Field) → Values fields → List (String × Json)
  | [], () => []
  | field :: fields, (value, values) =>
      (field.name, field.type.toJson value) :: toJson fields values

end Values

/-! ## Reading fields -/

/-- Reads the fields of a message one after the other, counting them. -/
structure FieldCursor where
  /-- The name of the message. -/
  message : String
  /-- The number of fields read, whether well or not. -/
  position : Nat := 0
  /-- The bytes not taken. -/
  rest : Bytes
  deriving DecidableEq, Repr

namespace FieldCursor

/-- Reads one field. -/
def read (cursor : FieldCursor) (name : String) (decoder : Decoder α) :
    Except DecodeError α × FieldCursor :=
  match decoder cursor.rest with
  | .ok value rest => (.ok value, { cursor with position := cursor.position + 1, rest })
  | .error cause rest =>
      (.error (.field cursor.message name cursor.position cause),
        { cursor with position := cursor.position + 1, rest })

/-- Reads fields up to the first that fails. -/
def readAll : (fields : List Field) → FieldCursor →
    Except DecodeError (Values fields × FieldCursor)
  | [], cursor => .ok ((), cursor)
  | field :: fields, cursor =>
      match cursor.read field.name field.type.decoder with
      | (.error error, _) => .error error
      | (.ok value, cursor) =>
          match readAll fields cursor with
          | .error error => .error error
          | .ok (values, cursor) => .ok ((value, values), cursor)

end FieldCursor

end PeerWire
