import PeerWire.Deflate.Chains

/-! # Looking for a copy

The longest earlier occurrence of the bytes at a position, among those that a bounded walk along
the chains meets. The nearest of equally long ones wins, since it is met first. -/

namespace PeerWire.Deflate

/-- The longest copy. -/
def maxCopyLength : Nat := 258

/-- The shortest copy. -/
def minCopyLength : Nat := 3

/-- A copy of earlier output. -/
structure Copy where
  /-- The number of bytes. -/
  length : Nat
  /-- How far back they stand. -/
  distance : Nat
  /-- A copy is never shorter than the shortest one. -/
  le_length : minCopyLength ≤ length

/-- The number of places, up to `bound`, in which the bytes from two positions on agree. -/
def agreement (bytes : ByteArray) : (bound first second : Nat) → Nat
  | 0, _, _ => 0
  | bound + 1, first, second =>
      if byteAt bytes first = byteAt bytes second then
        agreement bytes bound (first + 1) (second + 1) + 1
      else 0

/-- What is looked for: bytes like those from a position on. -/
structure Quest where
  /-- All bytes. -/
  bytes : ByteArray
  /-- The earlier positions. -/
  chains : Chains
  /-- The position. -/
  position : Nat
  /-- The length that cannot be exceeded. -/
  bound : Nat
  /-- The distance that cannot be exceeded. -/
  reach : Nat

namespace Quest

/-- An earlier position may beat a copy of some length only when it agrees with this one in the
last byte of that copy and in the byte after it. -/
def mayBeat (quest : Quest) (length other : Nat) : Bool :=
  byteAt quest.bytes (other + length - 1) = byteAt quest.bytes (quest.position + length - 1) &&
    byteAt quest.bytes (other + length) = byteAt quest.bytes (quest.position + length)

/-- The number of positions looked at in a round when none of them is compared in full. -/
def looksPerRound : Nat := 3

/-- Follows a chain from a position `back` places before this one. A round ends with a comparison
in full or when its looks are used up; the walk ends with the rounds, with the chain, or with a
copy that cannot be exceeded. `length` and `distance` are those of the best copy met so far. -/
def follow (quest : Quest) (rounds looks back length distance : Nat) : Nat × Nat :=
  match rounds, looks with
  | 0, 0 => (length, distance)
  | rounds + 1, 0 => quest.follow rounds looksPerRound back length distance
  | rounds, looks + 1 =>
      match quest.chains.distanceBefore? quest.position (quest.position - back) with
      | none => (length, distance)
      | some farther =>
          -- the chain has come full circle, or leads out of reach
          if farther = 0 || quest.reach < farther then (length, distance)
          else
            let other := quest.position - farther
            if quest.mayBeat length other then
              -- the hash and the two bytes promise a match; only this comparison proves it
              let found := agreement quest.bytes quest.bound quest.position other
              if found = quest.bound then (found, farther)
              else if length < found then quest.follow rounds 0 farther found farther
              else quest.follow rounds 0 farther length distance
            else quest.follow rounds looks farther length distance
  termination_by (rounds, looks)

/-- The number of rounds: fewer when a long copy is already known. -/
def rounds (known : Nat) : Nat := if known < 32 then 43 else 11

/-- A copy of the shortest length is not worth its bits from this distance on. -/
def shortReach : Nat := 8192

/-- The longest copy found, if it is longer than `known`. Left out are the shortest copies from far
away, and copies from positions whose number is a multiple of the window size. -/
def best? (quest : Quest) (known : Nat) : Option Copy :=
  if quest.bound ≤ known then none
  else
    let (length, distance) := quest.follow (rounds known) 0 0 known 0
    if h : minCopyLength ≤ length then
      if distance = 0 || length = minCopyLength && shortReach ≤ distance ||
          distance = quest.position % windowSize then none
      else some ⟨length, distance, h⟩
    else none

end Quest

end PeerWire.Deflate
