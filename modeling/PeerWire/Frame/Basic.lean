import PeerWire.Codec.Decoder
import PeerWire.Transport.Fault

/-! # Frames

A frame carries one message: a two-byte length, which counts the tag and the body, then the tag
and the body. Two decoders read it: `Frame.read` looks at a whole byte string and says what is
missing; `Frame.takeFrom` looks at a buffer that may still grow. -/

namespace PeerWire

/-- A tag and a body. -/
structure Frame where
  /-- What the body is. -/
  tag : UInt16
  /-- The bytes of the message after its tag. -/
  body : Bytes
  deriving DecidableEq, Repr

/-- Why a frame cannot be read or written. -/
inductive FrameError where
  /-- The length exceeds the limit. -/
  | oversize (size limit : Nat)
  /-- The length has no room for the tag. -/
  | tooShort (length : Nat)
  /-- The input ends within the frame. -/
  | truncated (expected available : Nat)
  /-- The transport failed. -/
  | transport (fault : TransportFault)
  /-- The input ends between frames, or the output takes nothing more. -/
  | closed
  deriving DecidableEq, Repr

namespace Frame

/-- The bytes of the length. -/
def lengthWidth : Nat := 2

/-- The bytes of the tag. -/
def tagWidth : Nat := 2

/-- The largest length that two bytes can say: `65535`. -/
def maxSize : Nat := 65535

/-- The length that a frame declares: `tagWidth + frame.body.length`. -/
def declaredLength (frame : Frame) : Nat := tagWidth + frame.body.length

/-- The bytes of a frame on the wire: `lengthWidth + frame.declaredLength`. -/
def wireLength (frame : Frame) : Nat := lengthWidth + frame.declaredLength

/-- The wire form of a frame whose length can be said. -/
def toBytes (frame : Frame) : Bytes :=
  Wire.length frame.declaredLength ++ bigEndian 2 frame.tag.toNat ++ frame.body

end Frame

/-- The wording of a frame error. -/
def FrameError.message : FrameError → String
  | .oversize size limit => s!"frame too large ({size} bytes, max {limit})"
  | .tooShort length =>
      s!"frame length {length} is shorter than the {Frame.tagWidth}-byte type tag"
  | .truncated expected available =>
      s!"truncated frame ({available} of {expected} bytes available)"
  | .transport fault => "frame I/O error: " ++ fault.message
  | .closed => "connection closed"

namespace Frame

/-- Refuses a declared length over `limit`, and then one without room for the tag. -/
def checkDeclared (declared limit : Nat) : Except FrameError Unit :=
  if declared > limit then .error (.oversize declared limit)
  else if declared < tagWidth then .error (.tooShort declared)
  else .ok ()

/-- Appends the wire form of a frame to a buffer, `buffer ++ frame.toBytes`, unless two bytes cannot
say its length. -/
def appendTo (frame : Frame) (buffer : Bytes) : Except FrameError Bytes :=
  if frame.declaredLength > maxSize then .error (.oversize frame.declaredLength maxSize)
  else .ok (buffer ++ frame.toBytes)

/-- The wire form of a frame, unless two bytes cannot say its length: `frame.appendTo []`. -/
def encode (frame : Frame) : Except FrameError Bytes := frame.appendTo []

/-- The length that the first two bytes declare. -/
def declaredBy? : Bytes → Option Nat
  | high :: low :: _ => some (ofBigEndian [high, low])
  | _ => none

/-- The bytes that a frame in progress will have, as far as its start tells: `lengthWidth` before it
declares a length. -/
def expectedSize (pending : Bytes) : Nat :=
  match declaredBy? pending with
  | some declared => lengthWidth + declared
  | none => lengthWidth

/-- Reads the frame at the front of a byte string, and says how many bytes it takes. -/
def read (bytes : Bytes) (limit : Nat) : Except FrameError (Frame × Nat) :=
  match bytes with
  | high :: low :: rest =>
      let declared := ofBigEndian [high, low]
      match checkDeclared declared limit with
      | .error error => .error error
      | .ok () =>
          let content := rest.take declared
          if content.length = declared then
            .ok (⟨UInt16.ofNat (ofBigEndian (content.take tagWidth)), content.drop tagWidth⟩,
              lengthWidth + declared)
          else .error (.truncated (lengthWidth + declared) bytes.length)
  | _ => .error (.truncated lengthWidth bytes.length)

/-- Takes a tag and a body of together `declared` bytes off a byte string. -/
def contentDecoder (declared : Nat) : Decoder Frame := do
  let tag ← Decoder.u16
  let body ← Decoder.take (declared - tagWidth)
  return ⟨tag, body.1⟩

/-- Takes a complete frame off the front of a buffer; `none` while bytes are missing. A refused
length is an error as soon as it can be read, and stays in the buffer. -/
def takeFrom (buffer : Bytes) (limit : Nat) : Except FrameError (Option (Frame × Bytes)) :=
  match declaredBy? buffer with
  | none => .ok none
  | some declared =>
      match checkDeclared declared limit with
      | .error error => .error error
      | .ok () =>
          match contentDecoder declared (buffer.drop lengthWidth) with
          | .ok frame rest => .ok (some (frame, rest))
          | .error _ _ => .ok none

/-! ## Nothing is lost -/

/-- What the first two bytes declare, as the bytes themselves. -/
theorem eq_length_append_of_declaredBy? {buffer : Bytes} {declared : Nat}
    (h : declaredBy? buffer = some declared) :
    buffer = Wire.length declared ++ buffer.drop lengthWidth := by
  match buffer with
  | [] => simp [declaredBy?] at h
  | [_] => simp [declaredBy?] at h
  | high :: low :: rest =>
      obtain rfl : ofBigEndian [high, low] = declared := by simpa [declaredBy?] using h
      have := bigEndian_ofBigEndian [high, low]
      simp only [List.length_cons, List.length_nil] at this
      simp [Wire.length, lengthWidth, this]

/-- The content of a frame is its tag and its body: `bigEndian 2 frame.tag.toNat ++ frame.body`. -/
theorem eq_of_contentDecoder {declared : Nat} {bytes rest : Bytes} {frame : Frame}
    (h : contentDecoder declared bytes = .ok frame rest) :
    bytes = bigEndian 2 frame.tag.toNat ++ frame.body ++ rest ∧
      frame.body.length = declared - tagWidth := by
  match bytes with
  | [] => cases h
  | [_] => cases h
  | high :: low :: tail =>
      have small := ofBigEndian_lt [high, low]
      have back := bigEndian_ofBigEndian [high, low]
      simp only [List.length_cons, List.length_nil] at small back
      have run : contentDecoder declared (high :: low :: tail) =
          match Decoder.take (declared - tagWidth) tail with
          | .ok body rest => .ok ⟨UInt16.ofNat (ofBigEndian [high, low]), body.1⟩ rest
          | .error error rest => .error error rest := by
        unfold contentDecoder
        simp only [bind, EStateM.bind, pure, EStateM.pure, Decoder.u16_cons_cons]
        cases Decoder.take (declared - tagWidth) tail <;> rfl
      rw [run] at h
      simp only [Decoder.take] at h
      split at h
      · rename_i body rest' hbody
        split at hbody
        · rename_i hlength
          cases h
          cases hbody
          refine ⟨?_, hlength⟩
          have : (UInt16.ofNat (ofBigEndian [high, low])).toNat = ofBigEndian [high, low] := by
            rw [UInt16.toNat_ofNat']
            exact Nat.mod_eq_of_lt small
          simp [this, back]
        · cases hbody
      · cases h

/-- A frame taken off a buffer and what is left are the buffer: `buffer = frame.toBytes ++ rest`. -/
theorem eq_of_takeFrom {buffer rest : Bytes} {limit : Nat} {frame : Frame}
    (h : takeFrom buffer limit = .ok (some (frame, rest))) : buffer = frame.toBytes ++ rest := by
  unfold takeFrom at h
  split at h
  · cases h
  · rename_i declared hdeclared
    split at h
    · cases h
    · rename_i hcheck
      split at h
      · rename_i found left hcontent
        cases h
        obtain ⟨hbytes, hlength⟩ := eq_of_contentDecoder hcontent
        have enough : tagWidth ≤ declared := by
          unfold checkDeclared at hcheck
          split at hcheck
          · cases hcheck
          · split at hcheck
            · cases hcheck
            · omega
        have same : frame.declaredLength = declared := by
          unfold declaredLength
          omega
        rw [eq_length_append_of_declaredBy? hdeclared, hbytes]
        simp [toBytes, same]
      · cases h

/-- A frame on the wire has at least a length and a tag. -/
theorem length_toBytes (frame : Frame) : frame.toBytes.length = frame.wireLength := by
  simp [toBytes, wireLength, declaredLength, Wire.length, lengthWidth, tagWidth]

end Frame

end PeerWire
