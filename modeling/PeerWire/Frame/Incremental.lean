import PeerWire.Frame.Basic

/-! # Incremental framing

Framing over a buffer that someone else fills and empties. -/

namespace PeerWire

/-- Framing with a limit on the declared length. -/
structure FrameCodec where
  /-- The largest declared length, in either direction. -/
  limit : Nat := Frame.maxSize
  deriving DecidableEq, Repr

namespace FrameCodec

/-- Appends a frame to the output buffer, as `appendTo` does, unless it exceeds `codec.limit`. -/
def encode (codec : FrameCodec) (frame : Frame) (buffer : Bytes) : Except FrameError Bytes :=
  if frame.declaredLength > codec.limit then
    .error (.oversize frame.declaredLength codec.limit)
  else frame.appendTo buffer

/-- Takes a frame off the input buffer; `none` while bytes are missing. -/
def decode (codec : FrameCodec) (buffer : Bytes) : Except FrameError (Option (Frame × Bytes)) :=
  Frame.takeFrom buffer codec.limit

/-- Takes a frame off an input buffer that will not grow any more; `none` when it is empty. -/
def decodeEnd (codec : FrameCodec) (buffer : Bytes) :
    Except FrameError (Option (Frame × Bytes)) :=
  match codec.decode buffer with
  | .error error => .error error
  | .ok (some found) => .ok (some found)
  | .ok none =>
      if buffer.isEmpty then .ok none
      else .error (.truncated (Frame.expectedSize buffer) buffer.length)

end FrameCodec

end PeerWire
