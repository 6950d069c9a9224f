import PeerWire.Deflate.BitReader

/-! # What can be wrong with a field

Errors are causes. Their wording is in `CodecError.message` and `DecodeError.message`. -/

namespace PeerWire

/-- Why a value is not allowed in its field. -/
inductive ValueError where
  /-- A flag byte that is neither 0 nor 1. -/
  | flag (byte : UInt8)
  /-- An id list too short for its encoding byte. -/
  | missingIdEncoding
  /-- An encoding byte that names no encoding. -/
  | unknownIdEncoding (byte : UInt8)
  /-- A byte in front of an address that names no kind of address. -/
  | unknownAddress (descriptor : UInt8)
  /-- A compressed id list that cannot be inflated within the limit. -/
  | compressedIds (fault : Deflate.Fault) (limit : Nat)
  /-- A ping that asks for more bytes than a pong can carry. -/
  | pongTooLong (bytes limit : Nat)
  /-- A ping with more padding than fits. -/
  | paddingTooLong (bytes limit : Nat)
  deriving DecidableEq, Repr

/-- The wording of a value error. -/
def ValueError.message : ValueError → String
  | .flag byte => s!"boolean byte must be 0 or 1, got {byte.toNat}"
  | .missingIdEncoding => "short channel id list is missing its encoding byte"
  | .unknownIdEncoding byte => s!"unknown short channel id encoding {byte.toNat}"
  | .unknownAddress descriptor => s!"unknown address descriptor {descriptor.toNat}"
  | .compressedIds .corrupt _ => "zlib: corrupt deflate stream"
  | .compressedIds .incomplete _ => "zlib: incomplete deflate stream"
  | .compressedIds .overLimit limit => s!"zlib id list inflates beyond {limit} bytes"
  | .pongTooLong bytes limit => s!"pong of {bytes} bytes would not fit in a frame (max {limit})"
  | .paddingTooLong bytes limit =>
      s!"ping padding of {bytes} bytes would not fit in a frame (max {limit})"

/-- Why bytes are not the wire form of a field. -/
inductive CodecError where
  /-- Fewer bytes are left than the next step needs. -/
  | truncated (needed available : Nat)
  /-- A byte length that is no multiple of the record width. -/
  | misaligned (length width : Nat)
  /-- The bytes are there, but their value is not allowed. -/
  | invalid (cause : ValueError)
  deriving DecidableEq, Repr

/-- The wording of a codec error. -/
def CodecError.message : CodecError → String
  | .truncated needed available =>
      s!"truncated input (needed {needed} bytes, {available} available)"
  | .misaligned length width =>
      s!"length {length} is not a multiple of the {width}-byte record width"
  | .invalid cause => "invalid field value: " ++ cause.message

/-- Why bytes are not a message: the tag cannot be read, or a field cannot. -/
inductive DecodeError where
  /-- The tag cannot be read. -/
  | tag (cause : CodecError)
  /-- A declared field cannot be read; fields are counted from zero. -/
  | field (message name : String) (position : Nat) (cause : CodecError)
  deriving DecidableEq, Repr

namespace DecodeError

/-- What is wrong with the bytes, wherever it is. -/
def cause : DecodeError → CodecError
  | .tag cause => cause
  | .field _ _ _ cause => cause

/-- The wording of a decode error. -/
def message : DecodeError → String
  | .tag cause => "cannot read message type: " ++ cause.message
  | .field message name position cause =>
      s!"{message}: field {position} ({name}): {cause.message}"

end DecodeError

end PeerWire
