import PeerWire.Features
import PeerWire.Amount
import PeerWire.Blob
import PeerWire.Randomness.Draw
import PeerWire.ShortChannelId

/-! # Drawing field values

Values that look like those of real messages, drawn from a generator. -/

namespace PeerWire.Sample

open Randomness (Draw)

/-- A blob of any bytes. -/
def blob (kind : BlobKind) : Draw (Blob kind) := return ⟨← Draw.octets kind.width⟩

/-- The form of a compressed point: its first byte is 2 or 3, which is `2 ||| (byte &&& 1)`. -/
def pointByte (byte : UInt8) : UInt8 := 2 ||| (byte &&& 1)

/-- The key with any bytes whose first is made that of a compressed point. -/
def publicKeyOf : Octets 33 → PublicKey
  | ⟨bytes, h⟩ => ⟨⟨bytes.modifyHead pointByte, by simpa [BlobKind.width] using h⟩⟩

/-- A key that has the form of a compressed point. -/
def publicKey : Draw PublicKey := return publicKeyOf (← Draw.octets 33)

/-- What a short channel id is made of. -/
structure Location where
  /-- The height of the block. -/
  height : UInt32
  /-- The index of the transaction in it. -/
  index : UInt32
  /-- The index of the output of that. -/
  output : UInt16
  deriving DecidableEq, Repr

/-- The id of a location: `ShortChannelId.ofParts` of its parts. -/
def Location.pack (place : Location) : ShortChannelId :=
  .ofParts place.height place.index place.output

/-- A channel location of recent years. -/
def location : Draw Location := do
  let height ← Draw.u32In 500000 900000
  let index ← Draw.u32In 0 4000
  let output ← Draw.u16In 0 8
  return ⟨height, index, output⟩

/-- The id of a channel location of recent years: `place.pack`. -/
def shortChannelId : Draw ShortChannelId := return (← location).pack

/-- Some short channel ids, each packed from a location; `done` holds those drawn so far, last one
first. -/
def shortChannelIds (pack : Location → ShortChannelId) :
    (count : Nat) → (done : List ShortChannelId) → Draw (List ShortChannelId)
  | 0, done => return done.reverse
  | count + 1, done => do
      let place ← location
      shortChannelIds pack count (pack place :: done)

/-- Some of the given `bits`, each with the same probability. -/
def someBits : (bits : List Nat) → Draw (List Nat)
  | [] => return []
  | bit :: bits => do
      let chosen ← Draw.twoFifths
      let rest ← someBits bits
      return if chosen then bit :: rest else rest

/-- Some of the bits of named features. -/
def features : Draw FeatureVector := return .ofBits (← someBits (List.range 8))

/-- An amount in thousandths. -/
def milliSatoshi : Draw MilliSatoshi := return ⟨← Draw.u64In 1000 5000000000⟩

/-- An amount. -/
def satoshi : Draw Satoshi := return ⟨← Draw.u64In 546 16777216⟩

/-- A fee rate. -/
def feeRate : Draw FeeRate := return ⟨← Draw.u32In 253 50000⟩

/-- Some signatures; `done` holds those drawn so far, last one first. -/
def signatures : (count : Nat) → (done : List Signature) → Draw (List Signature)
  | 0, done => return done.reverse
  | count + 1, done => do
      let signature ← blob .signature
      signatures count (signature :: done)

end PeerWire.Sample
