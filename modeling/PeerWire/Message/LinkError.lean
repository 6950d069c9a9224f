import PeerWire.Frame.Basic

/-! # Errors of message streams

Only a body that cannot be read leaves a stream usable; every other error is fatal. -/

namespace PeerWire

/-- Why a stream gives no message. -/
inductive LinkError where
  /-- No frame could be read or written. -/
  | frame (cause : FrameError)
  /-- A frame was read, but its body is no message of its tag. -/
  | decode (tag : UInt16) (cause : DecodeError)
  /-- Too many bodies in a row could not be read. -/
  | skippedTooMany (count : Nat)
  deriving DecidableEq, Repr

namespace LinkError

/-- The wording of a stream error. -/
def message : LinkError → String
  | .frame cause => "frame error: " ++ cause.message
  | .decode tag cause => s!"malformed message (type {tag.toNat}): {cause.message}"
  | .skippedTooMany count => s!"gave up after skipping {count} malformed messages"

/-- Whether the stream cannot go on: true of all but `decode` errors. -/
def isFatal : LinkError → Bool
  | .decode .. => false
  | _ => true

/-- Whether the stream has ended between frames: true of `.frame .closed` alone. -/
def isClosed : LinkError → Bool
  | .frame .closed => true
  | _ => false

end LinkError

end PeerWire
