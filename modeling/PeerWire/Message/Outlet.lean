import PeerWire.Frame.Outlet
import PeerWire.Message.Basic
import PeerWire.Message.LinkError

/-! # Writing messages to a sink

One message is one frame. -/

namespace PeerWire

/-- An outlet of messages. -/
structure MessageOutlet where
  /-- Where frames go. -/
  frames : FrameOutlet := {}
  deriving DecidableEq, Repr

namespace MessageOutlet

/-- The outcome of writing a frame, for the stream. -/
def finish (outlet : MessageOutlet) :
    Except FrameError Unit × FrameOutlet → Except LinkError Unit × MessageOutlet
  | (.ok (), frames) => (.ok (), { outlet with frames })
  | (.error cause, frames) => (.error (.frame cause), { outlet with frames })

/-- Writes the frame that carries a message, `message.toFrame`, and flushes. -/
def send (outlet : MessageOutlet) (message : Message) :
    Except LinkError Unit × MessageOutlet :=
  outlet.finish (outlet.frames.send message.toFrame)

/-- Flushes the sink. -/
def flush (outlet : MessageOutlet) : Except LinkError Unit × MessageOutlet :=
  outlet.finish outlet.frames.flush

/-- Writes messages in order, up to the first that fails. -/
def sendAll (outlet : MessageOutlet) : List Message → Except LinkError Unit × MessageOutlet
  | [] => (.ok (), outlet)
  | message :: messages =>
      match outlet.send message with
      | (.ok (), outlet) => outlet.sendAll messages
      | failed => failed

end MessageOutlet

end PeerWire
