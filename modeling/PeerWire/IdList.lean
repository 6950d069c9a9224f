import PeerWire.ShortChannelId
import PeerWire.Zlib

/-! # Short channel id lists

Gossip queries carry lists of short channel ids, plain or compressed. The payload is kept as it
came, so that a list compressed elsewhere is written back unchanged. -/

namespace PeerWire

/-- How the ids of a list are written. -/
inductive IdEncoding where
  /-- One after the other. -/
  | plain
  /-- Compressed with zlib. -/
  | zlib
  deriving DecidableEq, Repr

namespace IdEncoding

/-- The byte that names an encoding: `0` or `1`. -/
def toByte : IdEncoding → UInt8
  | .plain => 0
  | .zlib => 1

/-- The encoding a byte names. -/
def ofByte? : UInt8 → Option IdEncoding
  | 0 => some .plain
  | 1 => some .zlib
  | _ => none

/-- The name of an encoding. -/
def name : IdEncoding → String
  | .plain => "plain"
  | .zlib => "zlib"

end IdEncoding

/-- A list of ids with its payload. -/
structure IdList where
  /-- How the ids are written. -/
  encoding : IdEncoding
  /-- The ids. -/
  ids : List ShortChannelId
  /-- The ids as they are written. -/
  payload : Bytes
  deriving DecidableEq

namespace IdList

/-- The most bytes a compressed list may hold: `67413630`. -/
def inflateLimit : Nat := 67413630

/-- The ids one after the other: `ids.flatMap ShortChannelId.encode`. -/
def concat (ids : List ShortChannelId) : Bytes := ids.flatMap ShortChannelId.encode

/-- A plain list: its payload is `concat ids`. -/
def plain (ids : List ShortChannelId) : IdList := ⟨.plain, ids, concat ids⟩

/-- A list freshly compressed, by a compressor that may fail: its payload is what `compress` makes
of `concat ids`. -/
def zlibWith (compress : Bytes → Except CodecError Bytes) (ids : List ShortChannelId) :
    Except CodecError IdList := do
  let payload ← compress (concat ids)
  return ⟨.zlib, ids, payload⟩

/-- A freshly compressed list: its payload is `Zlib.compress (concat ids)`. -/
def zlib (ids : List ShortChannelId) : IdList := ⟨.zlib, ids, Zlib.compress (concat ids)⟩

/-- The empty plain list. -/
def empty : IdList := plain []

/-- The wire form: the two-byte length of the encoding byte and the payload, and these,
`list.encoding.toByte :: list.payload`. -/
def encode (list : IdList) : Bytes :=
  Wire.length (1 + list.payload.length) ++ list.encoding.toByte :: list.payload

/-- The length of the wire form: `3 + list.payload.length`. -/
def encodedLength (list : IdList) : Nat := 3 + list.payload.length

/-- The ids in a byte string that holds nothing else. -/
def parseRecords (bytes : Bytes) : Except CodecError (List ShortChannelId) :=
  match Decoder.records bytes.length ShortChannelId.width ShortChannelId.decoder bytes with
  | .ok ids _ => .ok ids
  | .error error _ => .error error

/-- The ids written by a payload. A compressed payload may be empty, and else `Zlib.decompress`
gives its content. -/
def parsePayload (encoding : IdEncoding) (payload : Bytes) :
    Except CodecError (List ShortChannelId) :=
  match encoding with
  | .plain => parseRecords payload
  | .zlib =>
      if payload.isEmpty then .ok []
      else
        match Zlib.decompress inflateLimit payload with
        | .error fault => .error (.invalid (.compressedIds fault inflateLimit))
        | .ok bytes => parseRecords bytes.toList

/-- Takes a list off a byte string. -/
def decoder : Decoder IdList := do
  let length ← Decoder.u16
  if length = 0 then throw (.invalid .missingIdEncoding)
  Decoder.ensure length.toNat
  let byte ← Decoder.u8
  match IdEncoding.ofByte? byte with
  | none => throw (.invalid (.unknownIdEncoding byte))
  | some encoding =>
      let payload ← Decoder.take (length.toNat - 1)
      match parsePayload encoding payload.1 with
      | .error error => throw error
      | .ok ids => return ⟨encoding, ids, payload.1⟩

end IdList

end PeerWire
