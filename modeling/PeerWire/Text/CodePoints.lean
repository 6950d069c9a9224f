/-! # Sets of code points

A property of characters is given as the set of code points that have it, written as ranges. -/

namespace PeerWire.Text

/-- A set of code points. -/
structure CodePoints where
  /-- Ranges, both ends included. -/
  ranges : Array (Nat × Nat)
  deriving DecidableEq, Repr

/-- A character is in a set when one of its ranges holds its code point. -/
def CodePoints.contains (set : CodePoints) (c : Char) : Bool :=
  set.ranges.any fun range => range.1 ≤ c.toNat && c.toNat ≤ range.2

end PeerWire.Text
