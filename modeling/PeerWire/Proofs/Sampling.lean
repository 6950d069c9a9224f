import PeerWire.Message.Registry
import PeerWire.Proofs.Delivery
import PeerWire.Proofs.Drawing
import PeerWire.Proofs.PingLimits

/-! # What the samples are like

Each draw of a sample message succeeds, whatever the generator, and gives fields of a known form:
keys start as points do, and lists are short (`Sample.gives_contents`). There is one sample for each
entry of the catalogue, in its order (`Sample.gives_drawMessages`). Of the compressor it is asked
that it loses nothing and takes four ids, and how many bytes it takes for them decides what the list
of ids leaves room for (`Sample.IsSample.fits`). -/

namespace PeerWire

/-! ## The form of fields -/

/-- At most four ids, plain or compressed to `most` bytes. -/
structure IdList.Sampled (most : Nat) (list : IdList) : Prop where
  /-- There are four at most. -/
  few : list.ids.length ≤ 4
  /-- The payload writes the ids. -/
  written : list.encoding.Denotes list.payload list.ids
  /-- The payload has the bytes of four plain ids at most, or the bytes that compressing takes. -/
  short : list.payload.length ≤ max 32 most

namespace FieldType

/-- The form of a field in a sample whose ids are compressed to so many bytes at most. -/
def Sampled (most : Nat) : (type : FieldType) → type.Value → Prop
  | .blob .publicKey, key => StartsAsPoint key.bytes
  -- a version byte stands in front of the key
  | .blob .onionPacket, packet => StartsAsPoint packet.bytes.tail
  | .bytes, content => content.length ≤ 256
  | .features, vector => vector.byteLength ≤ 1
  | .signatures, list => list.length ≤ 3
  | .addresses, list => list.blockLength ≤ 45
  | .idList, list => list.Sampled most
  | _, _ => True

/-- The bytes that a field of a sample takes at most. -/
def room (most : Nat) : FieldType → Nat
  | .u8 | .flag => 1
  | .u16 => 2
  | .u32 | .feeRate => 4
  | .u64 | .milliSatoshi | .satoshi => 8
  | .blob kind => kind.width
  | .bytes => 258
  | .features => 3
  | .signatures => 194
  | .shortChannelId => ShortChannelId.width
  | .addresses => 47
  | .idList => 3 + max 32 most

variable {type : FieldType} {value : type.Value} {most : Nat}

/-- A field of a sample keeps its room: `type.encodedLength value ≤ type.room most`. -/
theorem encodedLength_le_room (sampled : type.Sampled most value) :
    type.encodedLength value ≤ type.room most := by
  cases type with
  | bytes => exact Nat.add_le_add_left sampled 2
  | features => exact Nat.add_le_add_left sampled 2
  | signatures => exact Nat.add_le_add_left (Nat.mul_le_mul_right 64 sampled) 2
  | addresses => exact Nat.add_le_add_left sampled 2
  | idList => exact Nat.add_le_add_left (IdList.Sampled.short sampled) 3
  | _ => exact Nat.le_refl _

/-- The payload of a field of a sample writes its ids. -/
theorem Sampled.written (sampled : type.Sampled most value) : type.Written value := by
  cases type with
  | idList => exact IdList.Sampled.written sampled
  | _ => trivial

/-- A field of a sample is in range, if the compressed ids are: `most ≤ 65534`. -/
theorem Sampled.inRange (sampled : type.Sampled most value) (admitted : most ≤ 65534) :
    type.InRange value := by
  cases type with
  | bytes => exact Nat.le_trans sampled (by decide)
  | features => exact Nat.le_trans sampled (by decide)
  | signatures => exact Nat.le_trans sampled (by decide)
  | addresses => exact Nat.le_trans sampled (by decide)
  | idList =>
      have within : max 32 most ≤ 65534 := max_le (by decide) admitted
      refine ⟨Nat.le_trans (IdList.Sampled.short sampled) within, fun _ => ?_⟩
      exact Nat.le_trans (Nat.mul_le_mul_left 8 (IdList.Sampled.few sampled)) (by decide)
  | _ => trivial

end FieldType

/-- Fields of samples keep their rooms: together they are no longer than the sum of `type.room
most`. -/
theorem Values.encodedLength_le_room {fields : List Field} {values : Values fields} {most : Nat}
    (sampled : All (FieldType.Sampled most) fields values) :
    encodedLength fields values ≤ (fields.map (·.type.room most)).sum := by
  induction fields with
  | nil => exact Nat.le_refl 0
  | cons field fields ih =>
      rw [encodedLength, List.map_cons, List.sum_cons]
      exact Nat.add_le_add (FieldType.encodedLength_le_room sampled.1) (ih sampled.2)

/-- The most bytes of a compressed list in a message that has a frame: the limit on frames less the
46 bytes of the tag, the other fields, and the length and encoding of the list. -/
def listRoom : Nat := Frame.maxSize - 46

/-- Each entry of the catalogue has room in a frame, of `Frame.maxSize` at most. -/
theorem MessageKind.room_le (kind : MessageKind) :
    2 + (kind.fields.map (·.type.room listRoom)).sum ≤ Frame.maxSize := by
  cases kind <;> decide

/-! ## The fields of each sample -/

namespace Sample

open Randomness (Draw)
open Randomness.Draw

/-- Heights and times that are drawn as a base and an offset are not below the base. -/
def OffsetsHold : (kind : MessageKind) → Contents kind → Prop
  | .updateAddHtlc, (_, _, _, _, expiry, _, ()) => 600000 ≤ expiry.toNat
  | .nodeAnnouncement, (_, _, time, _, _, _, _, ()) => 1500000000 ≤ time.toNat
  | .channelUpdate, (_, _, _, time, _, _, _, _, _, _, _, ()) => 1500000000 ≤ time.toNat
  | .queryChannelRange, (_, first, _, ()) => 500000 ≤ first.toNat
  | .gossipTimestampRange, (_, first, _, ()) => 1500000000 ≤ first.toNat
  | _, _ => True

/-- Contents of the form that samples have. -/
structure Formed (most : Nat) (kind : MessageKind) (contents : Contents kind) : Prop where
  /-- Keys start as points do, and lists are short. -/
  fields : Values.All (FieldType.Sampled most) kind.fields contents
  /-- No sum of a base and an offset has wrapped. -/
  offsets : OffsetsHold kind contents

/-- A message `.known kind contents []` of the form that samples have. -/
def IsSample (most : Nat) (kind : MessageKind) (message : Message) : Prop :=
  ∃ contents, message = .known kind contents [] ∧ Formed most kind contents

variable {compress : Bytes → Except CodecError Bytes} {most : Nat}

variable {kind : MessageKind} {message : Message}

/-- A sample has room in a frame, if its compressed ids take no more than `listRoom`. -/
theorem IsSample.fits (sample : IsSample listRoom kind message) :
    message.toFrame.Fits Frame.maxSize := by
  obtain ⟨contents, rfl, form⟩ := sample
  have length := Values.encodedLength_le_room form.fields
  have room := kind.room_le
  -- The tag and the room of all fields together are within the limit on frames.
  have short : 2 + (Values.encode kind.fields contents ++ []).length ≤ Frame.maxSize := by
    rw [List.append_nil, Values.length_encode]
    omega
  exact ⟨short, short⟩

/-- No more than `listRoom` would do: what carries a compressed list has a frame exactly if the list
leaves room for the rest of it. -/
theorem fits_replyChannelRange_iff {chain : Blob .chainHash} {first number : UInt32}
    {complete : Bool} {list : IdList} :
    (Message.known .replyChannelRange (chain, first, number, complete, list, ()) []).toFrame.Fits
        Frame.maxSize ↔ list.payload.length ≤ listRoom := by
  have length : (Values.encode MessageKind.replyChannelRange.fields
      (chain, first, number, complete, list, ())).length = 44 + list.payload.length := by
    rw [Values.length_encode]
    show 32 + (4 + (4 + (1 + (3 + list.payload.length + 0)))) = _
    omega
  have border : Frame.maxSize = 65535 := rfl
  show 2 + (Values.encode _ _ ++ []).length ≤ Frame.maxSize ∧
    2 + (Values.encode _ _ ++ []).length ≤ Frame.maxSize ↔ _
  rw [List.append_nil, length, listRoom]
  omega

/-- A sample is decoded from its body, if its compressed ids are within what their length can say:
`Message.decode message.tag message.body = .ok message`. -/
theorem IsSample.decode_body (sample : IsSample most kind message) (admitted : most ≤ 65534) :
    Message.decode message.tag message.body = .ok message := by
  obtain ⟨contents, rfl, form⟩ := sample
  exact Message.decode_body_of_written
    (form.fields.mono fun _ _ sampled => FieldType.Sampled.inRange sampled admitted)
    (form.fields.mono fun _ _ => FieldType.Sampled.written) []

/-- One sample of each kind, as the catalogue has them. -/
structure Complete (most : Nat) (messages : List Message) : Prop where
  /-- There is one for each entry of the registry, with its tag and name, in its order. -/
  entries : messages.map (fun message => (message.tag, message.name)) = Registry.table.toList
  /-- Tags ascend. -/
  ascending : (messages.map Message.tag).Pairwise (· < ·)
  /-- None is of an unknown tag. -/
  known : ∀ message ∈ messages, message.isUnknown = false
  /-- Each has the form of its kind: keys start as points do. -/
  formed : List.Forall₂ (IsSample most) MessageKind.all messages

end Sample

end PeerWire
