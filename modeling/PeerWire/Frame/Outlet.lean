import PeerWire.Frame.Basic
import PeerWire.Transport.Sink

/-! # Writing frames to a sink

A frame is checked against both limits before anything is written, put together in a buffer that
serves one frame after the other, written whole, and flushed. -/

namespace PeerWire

/-- A sink, the limit on declared lengths, and the buffer in which frames are put together. -/
structure FrameOutlet where
  /-- Where bytes go. -/
  sink : Sink := {}
  /-- The largest declared length. -/
  limit : Nat := Frame.maxSize
  /-- The bytes put together last, whether they were written or not. -/
  assembly : Bytes := []
  deriving DecidableEq, Repr

namespace FrameOutlet

/-- The same outlet with another limit. -/
def withLimit (outlet : FrameOutlet) (limit : Nat) : FrameOutlet := { outlet with limit }

/-- How a failing sink is reported: one that takes nothing is `closed`. -/
def sinkError (fault : TransportFault) : FrameError :=
  if fault = .writeZero then .closed else .transport fault

/-- Flushes the sink. -/
def flush (outlet : FrameOutlet) : Except FrameError Unit × FrameOutlet :=
  match outlet.sink.flush with
  | (.ok (), sink) => (.ok (), { outlet with sink })
  | (.error fault, sink) => (.error (sinkError fault), { outlet with sink })

/-- Empties the buffer `assembly`, puts a frame together in it, writes it and flushes. A refused
frame leaves the sink alone. -/
def send (outlet : FrameOutlet) (frame : Frame) : Except FrameError Unit × FrameOutlet :=
  if frame.declaredLength > outlet.limit then
    (.error (.oversize frame.declaredLength outlet.limit), outlet)
  else
    let outlet := { outlet with assembly := [] }
    match frame.appendTo outlet.assembly with
    | .error error => (.error error, outlet)
    | .ok assembly =>
        match outlet.sink.writeAll assembly with
        | (.error fault, sink) => (.error (sinkError fault), { outlet with sink, assembly })
        | (.ok (), sink) => flush { outlet with sink, assembly }

end FrameOutlet

end PeerWire
