import PeerWire.Frame.Basic
import PeerWire.Transport.Source

/-! # Reading frames from a source

An inlet keeps what it has read but not yet returned. Nothing in its buffer is lost when a call
fails, so reading may go on after any error. -/

namespace PeerWire

/-- A source, what was read ahead from it, and the limit on declared lengths. -/
structure FrameInlet where
  /-- Where bytes come from. -/
  source : Source
  /-- Bytes read and not returned. -/
  buffer : Bytes := []
  /-- The largest declared length. -/
  limit : Nat := Frame.maxSize
  deriving DecidableEq, Repr

namespace FrameInlet

/-- The most bytes asked for in one read. -/
def chunkSize : Nat := 8192

/-- The same inlet with another limit. -/
def withLimit (inlet : FrameInlet) (limit : Nat) : FrameInlet := { inlet with limit }

/-- What the end of the input means with these bytes pending: `closed` without any, and else
`truncated`. -/
def endError (pending : Bytes) : FrameError :=
  if pending.isEmpty then .closed
  else .truncated (Frame.expectedSize pending) pending.length

/-- Returns the next frame, reading only while the buffer holds neither a complete frame nor a
refused length. Interrupted reads are repeated. -/
def receive (inlet : FrameInlet) : Except FrameError Frame × FrameInlet :=
  match Frame.takeFrom inlet.buffer inlet.limit with
  | .error error => (.error error, inlet)
  | .ok (some (frame, buffer)) => (.ok frame, { inlet with buffer })
  | .ok none =>
      match _event : inlet.source.read chunkSize with
      | (.data [], source) => (.error (endError inlet.buffer), { inlet with source })
      | (.data (byte :: bytes), source) =>
          receive { inlet with source, buffer := inlet.buffer ++ byte :: bytes }
      | (.fault fault, source) =>
          if fault = .interrupted then receive { inlet with source }
          else (.error (.transport fault), { inlet with source })
  termination_by inlet.source.size
  decreasing_by all_goals exact Source.size_read (by decide) (by simp) _event

/-- The number of bytes read ahead or still to be read: those of `buffer` and of
`source.pending`. -/
def weight (inlet : FrameInlet) : Nat := inlet.buffer.length + inlet.source.pending.length

/-- A returned frame leaves fewer bytes to return: `next.weight < inlet.weight`. -/
theorem weight_of_receive {inlet next : FrameInlet} {frame : Frame}
    (h : inlet.receive = (.ok frame, next)) : next.weight < inlet.weight := by
  fun_induction receive inlet with
  | case1 => cases h
  | case2 inlet found buffer hfound =>
      cases h
      have := congrArg List.length (Frame.eq_of_takeFrom hfound)
      simp only [List.length_append, Frame.length_toBytes, Frame.wireLength, Frame.declaredLength,
        Frame.lengthWidth, Frame.tagWidth] at this
      simp only [weight]
      omega
  | case3 => cases h
  | case4 inlet _ byte bytes source hread ih =>
      have := congrArg List.length (Source.pending_read hread)
      have := ih h
      simp only [weight, ReadEvent.bytes, List.length_append, List.length_cons] at *
      omega
  | case5 inlet _ source hread ih =>
      have := congrArg List.length (Source.pending_read hread)
      have := ih h
      simp only [weight, ReadEvent.bytes, List.length_append, List.length_nil] at *
      omega
  | case6 => cases h

end FrameInlet

end PeerWire
