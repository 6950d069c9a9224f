import PeerWire.Bytes

/-! # Chains of earlier positions

Where bytes like those at a position stood before. Each position is filed under a hash of the three
bytes that start there, and linked to the position last filed under the same hash. Positions are
kept modulo 65536 and links for the last 32768 positions only, so a chain may lead astray; whoever
follows it compares the bytes. -/

namespace PeerWire.Deflate

/-- The farthest distance of a copy, and the number of positions that have a link. -/
def windowSize : Nat := 32768

/-- The byte at a position; zero past the end. -/
def byteAt (bytes : ByteArray) (position : Nat) : UInt8 :=
  if h : position < bytes.size then bytes[position] else 0

/-- A hash of the three bytes from a position on, below `windowSize`. -/
def tripleHash (bytes : ByteArray) (position : Nat) : Nat :=
  let first := (byteAt bytes position).toNat
  let second := (byteAt bytes (position + 1)).toNat
  let third := (byteAt bytes (position + 2)).toNat
  ((first <<< 10) ^^^ (second <<< 5) ^^^ third) % windowSize

/-- Positions by hash, and the position before each. Zero stands for none. -/
structure Chains where
  /-- The last position filed under each hash. -/
  heads : Array UInt16
  /-- The position filed before each, by the position modulo `windowSize`. -/
  links : Array UInt16

namespace Chains

/-- No position is filed. -/
def empty : Chains := ⟨Array.replicate windowSize 0, Array.replicate windowSize 0⟩

/-- Files a position. -/
def insert (bytes : ByteArray) (position : Nat) : Chains → Chains
  | ⟨heads, links⟩ =>
      let hash := tripleHash bytes position
      let before := heads.getD hash 0
      ⟨heads.setIfInBounds hash (UInt16.ofNat position),
        links.setIfInBounds (position % windowSize) before⟩

/-- Files `count` positions from one on. -/
def insertMany (bytes : ByteArray) : (count position : Nat) → Chains → Chains
  | 0, _, chains => chains
  | count + 1, position, chains =>
      insertMany bytes count (position + 1) (chains.insert bytes position)

/-- How far back the position before another one stands, modulo 65536; `none` when there is no such
position. -/
def distanceBefore? (chains : Chains) (position other : Nat) : Option Nat :=
  let before := (chains.links.getD (other % windowSize) 0).toNat
  if before = 0 then none else some ((position % 65536 + 65536 - before) % 65536)

end Chains

end PeerWire.Deflate
