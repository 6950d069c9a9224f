import PeerWire.Frame.Basic
import PeerWire.Message.Catalogue

/-! # Messages

A message is of a kind of the catalogue or of an unknown tag. It is written as its tag, its
fields and whatever came after them; it is read by looking up its tag. Reading never fails on an
unknown tag, and every byte that is not understood is kept. -/

namespace PeerWire

/-- A message. -/
inductive Message where
  /-- A message of the catalogue: its declared fields, and the bytes after them. -/
  | known (kind : MessageKind) (contents : Contents kind) (extra : Bytes)
  /-- A message with any other tag, kept as it is. -/
  | unknown (tag : UInt16) (body : Bytes)

namespace Message

/-- Messages can be compared. -/
instance : DecidableEq Message
  | .known kind contents extra, .known kind' contents' extra' =>
      if h : kind = kind' then by
        subst h
        exact decidable_of_iff (contents = contents' ∧ extra = extra') (by simp)
      else isFalse (by simp [h])
  | .unknown tag body, .unknown tag' body' =>
      decidable_of_iff (tag = tag' ∧ body = body') (by simp)
  | .known .., .unknown .. => isFalse (by simp)
  | .unknown .., .known .. => isFalse (by simp)

/-- The tag of a message. -/
def tag : Message → UInt16
  | .known kind _ _ => kind.tag
  | .unknown tag _ => tag

/-- The name of a message. -/
def name : Message → String
  | .known kind _ _ => kind.name
  | .unknown _ _ => "unknown"

/-- Whether the tag was not in the catalogue. -/
def isUnknown : Message → Bool
  | .known .. => false
  | .unknown .. => true

/-! ## Wire form -/

/-- The bytes after the tag: `Values.encode kind.fields contents ++ extra` for a known kind. -/
def body : Message → Bytes
  | .known kind contents extra => Values.encode kind.fields contents ++ extra
  | .unknown _ body => body

/-- The number of bytes after the tag, without writing them. -/
def bodyLength : Message → Nat
  | .known kind contents extra => Values.encodedLength kind.fields contents + extra.length
  | .unknown _ body => body.length

/-- Appends the bytes after the tag to a buffer: `buffer ++ message.body`. -/
def appendBody (message : Message) (buffer : Bytes) : Bytes := buffer ++ message.body

/-- The tag and the bytes after it: `bigEndian 2 message.tag.toNat ++ message.body`. -/
def toBytes (message : Message) : Bytes := bigEndian 2 message.tag.toNat ++ message.body

/-- The frame that carries a message: `⟨message.tag, message.body⟩`. -/
def toFrame (message : Message) : Frame := ⟨message.tag, message.body⟩

/-- The wire form of the frame that carries a message. -/
def encodeFrame (message : Message) : Except FrameError Bytes := message.toFrame.encode

/-- Reads the bytes after a tag. If `MessageKind.ofTag? tag` is none they are kept as they are. -/
def decode (tag : UInt16) (body : Bytes) : Except DecodeError Message :=
  match MessageKind.ofTag? tag with
  | none => .ok (.unknown tag body)
  | some kind =>
      match FieldCursor.readAll kind.fields ⟨kind.name, 0, body⟩ with
      | .error error => .error error
      | .ok (contents, cursor) => .ok (.known kind contents cursor.rest)

/-- Reads a tag and the bytes after it. -/
def read (bytes : Bytes) : Except DecodeError Message :=
  match Decoder.u16 bytes with
  | .error cause _ => .error (.tag cause)
  | .ok tag body => decode tag body

/-- Reads the message that a frame carries: `decode frame.tag frame.body`. -/
def ofFrame (frame : Frame) : Except DecodeError Message := decode frame.tag frame.body

/-! ## Reports -/

/-- What a report shows of a message. -/
def toJson : Message → Json
  | .known kind contents extra => .object [
      (kind.name, .object (Values.toJson kind.fields contents ++
        [("extra", .text (Hex.encode extra))]))]
  | .unknown tag body => .object [
      ("unknown", .object [("type_id", .number tag.toNat), ("body", .text (Hex.encode body))])]

end Message

end PeerWire
