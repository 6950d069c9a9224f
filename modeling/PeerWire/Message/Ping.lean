import PeerWire.Message.Basic

/-! # Pings and pongs

A ping asks for a pong of some length and may carry padding. A ping that asks for more than a
frame can carry is not answered. -/

namespace PeerWire

/-- The most bytes that a pong can carry: a frame less a tag and a length, `65535 - 2 - 2`. -/
def pongCapacity : Nat := 65531

/-- The most padding that a ping can carry: a frame less a tag, a number and a length, `65535 - 2 -
2 - 2`. -/
def paddingCapacity : Nat := 65529

/-- A ping that asks for a pong of some length and carries zeros as padding. -/
def Contents.ping (pongBytes padding : UInt16) : Except CodecError (Contents .ping) :=
  if pongBytes.toNat > pongCapacity then
    .error (.invalid (.pongTooLong pongBytes.toNat pongCapacity))
  else if padding.toNat > paddingCapacity then
    .error (.invalid (.paddingTooLong padding.toNat paddingCapacity))
  else .ok (pongBytes, List.replicate padding.toNat 0, ())

/-- Whether a ping wants an answer: `pongBytes ≤ pongCapacity`. -/
def Contents.wantsPong : Contents .ping → Bool
  | (pongBytes, _, ()) => pongBytes.toNat ≤ pongCapacity

/-- The answer to a ping: as many zeros as it asks for, or `none` if it wants no answer. -/
def Contents.pong? : Contents .ping → Option (Contents .pong)
  | (pongBytes, _, ()) =>
      if pongBytes.toNat ≤ pongCapacity then some (List.replicate pongBytes.toNat 0, ()) else none

end PeerWire
