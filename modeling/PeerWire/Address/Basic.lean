import PeerWire.Codec.Decoder
import PeerWire.Text.Hex

/-! # Network addresses

An address is a host of one of four kinds and a port. On the wire a descriptor byte names the
kind and so the width of what follows. -/

namespace PeerWire

/-- What an address descriptor names. -/
inductive AddressKind where
  /-- An address of the Internet Protocol, version 4. -/
  | ipv4
  /-- An address of the Internet Protocol, version 6. -/
  | ipv6
  /-- An onion service, version 2. -/
  | onionV2
  /-- An onion service, version 3. -/
  | onionV3
  deriving DecidableEq, Repr

namespace AddressKind

/-- The byte that names a kind, `1` to `4`. -/
def descriptor : AddressKind → UInt8
  | .ipv4 => 1
  | .ipv6 => 2
  | .onionV2 => 3
  | .onionV3 => 4

/-- The number of bytes after the descriptor. -/
def payloadWidth : AddressKind → Nat
  | .ipv4 => 6
  | .ipv6 => 18
  | .onionV2 => 12
  | .onionV3 => 37

/-- The kind a descriptor names. -/
def ofDescriptor? : UInt8 → Option AddressKind
  | 1 => some .ipv4
  | 2 => some .ipv6
  | 3 => some .onionV2
  | 4 => some .onionV3
  | _ => none

end AddressKind

/-- A host and a port. -/
inductive NetAddress where
  /-- An address of the Internet Protocol, version 4. -/
  | ipv4 (host : Octets 4) (port : UInt16)
  /-- An address of the Internet Protocol, version 6. -/
  | ipv6 (host : Octets 16) (port : UInt16)
  /-- An onion service, version 2. -/
  | onionV2 (service : Octets 10) (port : UInt16)
  /-- An onion service, version 3, by its key. -/
  | onionV3 (key : Octets 32) (checksum : UInt16) (version : UInt8) (port : UInt16)
  deriving DecidableEq

namespace NetAddress

/-- The kind of an address. -/
def kind : NetAddress → AddressKind
  | .ipv4 .. => .ipv4
  | .ipv6 .. => .ipv6
  | .onionV2 .. => .onionV2
  | .onionV3 .. => .onionV3

/-- The port of an address. -/
def port : NetAddress → UInt16
  | .ipv4 _ port | .ipv6 _ port | .onionV2 _ port | .onionV3 _ _ _ port => port

/-! ## Wire form -/

/-- The bytes after the descriptor. -/
def payload : NetAddress → Bytes
  | .ipv4 host port => host.1 ++ bigEndian 2 port.toNat
  | .ipv6 host port => host.1 ++ bigEndian 2 port.toNat
  | .onionV2 service port => service.1 ++ bigEndian 2 port.toNat
  | .onionV3 key checksum version port =>
      key.1 ++ bigEndian 2 checksum.toNat ++ bigEndian 1 version.toNat ++ bigEndian 2 port.toNat

/-- The descriptor and the bytes after it: `address.kind.descriptor :: address.payload`. -/
def encode (address : NetAddress) : Bytes := address.kind.descriptor :: address.payload

/-- The length of the wire form: `1 + address.kind.payloadWidth`. -/
def encodedLength (address : NetAddress) : Nat := 1 + address.kind.payloadWidth

/-- Takes the bytes after a descriptor off a byte string. -/
def payloadDecoder : AddressKind → Decoder NetAddress
  | .ipv4 => do
      let host ← Decoder.take 4
      let port ← Decoder.u16
      return .ipv4 host port
  | .ipv6 => do
      let host ← Decoder.take 16
      let port ← Decoder.u16
      return .ipv6 host port
  | .onionV2 => do
      let service ← Decoder.take 10
      let port ← Decoder.u16
      return .onionV2 service port
  | .onionV3 => do
      let key ← Decoder.take 32
      let checksum ← Decoder.u16
      let version ← Decoder.u8
      let port ← Decoder.u16
      return .onionV3 key checksum version port

/-- Takes the bytes after the given `descriptor` off a byte string. -/
def decoderAfter (descriptor : UInt8) : Decoder NetAddress :=
  match AddressKind.ofDescriptor? descriptor with
  | none => throw (.invalid (.unknownAddress descriptor))
  | some kind => payloadDecoder kind

/-- After a known descriptor comes the payload of its `kind`. -/
theorem decoderAfter_of_known {descriptor : UInt8} {kind : AddressKind}
    (known : AddressKind.ofDescriptor? descriptor = some kind) :
    decoderAfter descriptor = payloadDecoder kind := by
  rw [decoderAfter, known]

/-! ## Text form -/

/-- Four bytes in decimal with dots between them, as in `127.0.0.1`. -/
def dottedDecimal (host : Bytes) : String :=
  ".".intercalate (host.map fun byte => toString byte.toNat)

/-- The bytes as two-byte numbers: `high * 256 + low` for each two. -/
def words : Bytes → List Nat
  | high :: low :: rest => (high.toNat * 256 + low.toNat) :: words rest
  | _ => []

/-- The longest run of zeros, as its start and length; of equal runs the first wins. A run in
progress has its start and length in `current`, and `position` is the place of the next number. -/
def longestZeroRun (position : Nat) (current best : Nat × Nat) : List Nat → Nat × Nat
  | [] => best
  | word :: rest =>
      if word = 0 then
        let current := if current.2 = 0 then (position, 1) else (current.1, current.2 + 1)
        longestZeroRun (position + 1) current (if best.2 < current.2 then current else best) rest
      else longestZeroRun (position + 1) (0, 0) best rest

/-- Hexadecimal numbers with colons between them. -/
def colonHex (words : List Nat) : String := ":".intercalate (words.map Text.hexNumber)

/-- The text of a version 6 host: eight hexadecimal numbers, the longest run of two or more zeros
left out; a version 4 host embedded behind five zeros and a number of ones is shown with dots. -/
def ipv6Text (host : Bytes) : String :=
  if host.take 12 = List.replicate 10 0 ++ [0xFF, 0xFF] then
    "::ffff:" ++ dottedDecimal (host.drop 12)
  else
    let words := words host
    let (start, length) := longestZeroRun 0 (0, 0) (0, 0) words
    if 1 < length then
      colonHex (words.take start) ++ "::" ++ colonHex (words.drop (start + length))
    else colonHex words

/-- The text of an address that a socket can connect to. -/
def socketText? : NetAddress → Option String
  | .ipv4 host port => some s!"{dottedDecimal host.1}:{port.toNat}"
  | .ipv6 host port => some s!"[{ipv6Text host.1}]:{port.toNat}"
  | _ => none

/-- The text of an address. -/
def toText (address : NetAddress) : String :=
  match address with
  | .ipv4 .. | .ipv6 .. => address.socketText?.getD ""
  | .onionV2 service port => s!"onion-v2:{Hex.encode service.1}:{port.toNat}"
  | .onionV3 key checksum version port =>
      s!"onion-v3:{Hex.encode key.1}:{Text.hexWord checksum.toNat}:{version.toNat}:{port.toNat}"

end NetAddress

end PeerWire
