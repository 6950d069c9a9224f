import PeerWire.Address.Basic

/-! # Address lists

A block of addresses one after the other. The first unknown descriptor ends the addresses: it and
all that follows are kept as they are, so that a list can be written back unchanged. -/

namespace PeerWire

/-- Addresses, and the bytes after them that are not understood. -/
structure AddressList where
  /-- The addresses in order. -/
  addresses : List NetAddress
  /-- What follows the last address. -/
  unparsed : Bytes
  /-- What is not understood does not start with a known descriptor. -/
  unknown_start : ∀ byte ∈ unparsed.head?, AddressKind.ofDescriptor? byte = none
  deriving DecidableEq

namespace AddressList

/-- The list of the given addresses and nothing else. -/
def ofAddresses (addresses : List NetAddress) : AddressList := ⟨addresses, [], by simp⟩

/-- The same list with other `addresses` in front of what is not understood. -/
def withAddresses (list : AddressList) (addresses : List NetAddress) : AddressList :=
  { list with addresses }

/-- The length of the block. -/
def blockLength (list : AddressList) : Nat :=
  list.addresses.foldr (fun address length => address.encodedLength + length)
    list.unparsed.length

/-- The wire form: the two-byte length of the block, and the block, which is the addresses and then
`list.unparsed`. -/
def encode (list : AddressList) : Bytes :=
  Wire.length list.blockLength ++ list.addresses.flatMap NetAddress.encode ++ list.unparsed

/-- The length of the wire form: `2 + list.blockLength`. -/
def encodedLength (list : AddressList) : Nat := 2 + list.blockLength

/-- Reads a block; `done` holds the addresses read so far, last one first. -/
def parseBlock (done : List NetAddress) (block : Bytes) : Except CodecError AddressList :=
  match block with
  | [] => .ok (ofAddresses done.reverse)
  | descriptor :: rest =>
      match h : AddressKind.ofDescriptor? descriptor with
      | none => .ok ⟨done.reverse, descriptor :: rest, by simpa using h⟩
      | some kind =>
          match (Decoder.take kind.payloadWidth) rest with
          | .error error _ => .error error
          | .ok payload _ =>
              match NetAddress.decoderAfter descriptor payload.1 with
              | .error error _ => .error error
              | .ok address _ => parseBlock (address :: done) (rest.drop kind.payloadWidth)
  termination_by block.length
  decreasing_by
    simp only [List.length_drop, List.length_cons]
    omega

/-- Takes a list off a byte string. -/
def decoder : Decoder AddressList := do
  let block ← Decoder.bytes
  match parseBlock [] block with
  | .error error => throw error
  | .ok list => return list

end AddressList

end PeerWire
