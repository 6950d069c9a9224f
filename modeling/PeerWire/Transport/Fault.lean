/-! # Transport faults

What can go wrong below the protocol, when bytes are read from or written to a connection or a
file. -/

namespace PeerWire

/-- The kinds of failure of a transport. -/
inductive TransportFault where
  /-- The peer reset the connection. -/
  | connectionReset
  /-- The peer does not read any more. -/
  | brokenPipe
  /-- Nothing can be done right now. -/
  | wouldBlock
  /-- The call was interrupted and may be repeated. -/
  | interrupted
  /-- The call took too long. -/
  | timedOut
  /-- The input ended within an item. -/
  | unexpectedEnd
  /-- A write took no bytes. -/
  | writeZero
  /-- There is no such thing. -/
  | notFound
  /-- It may not be used. -/
  | permissionDenied
  /-- A directory was read as a file. -/
  | isDirectory
  /-- Anything else. -/
  | other
  deriving DecidableEq, Repr

/-- The wording of a fault. -/
def TransportFault.message : TransportFault → String
  | .connectionReset => "connection reset"
  | .brokenPipe => "broken pipe"
  | .wouldBlock => "operation would block"
  | .interrupted => "operation interrupted"
  | .timedOut => "timed out"
  | .unexpectedEnd => "unexpected end of file"
  | .writeZero => "write zero"
  | .notFound => "entity not found"
  | .permissionDenied => "permission denied"
  | .isDirectory => "Is a directory (os error 21)"
  | .other => "other error"

end PeerWire
