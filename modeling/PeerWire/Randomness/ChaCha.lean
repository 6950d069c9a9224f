/-! # The ChaCha keystream

Words of a stream cipher with a 64-bit block counter and a nonce of zero. A block depends only on
the key and its number, so the stream is a function of the key. -/

namespace PeerWire.ChaCha

/-- The sixteen words that the rounds work on. -/
abbrev State := Vector UInt32 16

/-- A key of eight words. -/
abbrev Key := Vector UInt32 8

/-- Rotates a word to the left by `count` bits. -/
def rotateLeft (word : UInt32) (count : UInt32) : UInt32 :=
  (word <<< count) ||| (word >>> (32 - count))

/-- Mixes four words of a state. -/
def quarterRound (a b c d : Fin 16) (state : State) : State :=
  let state := state.set a (state[a] + state[b])
  let state := state.set d (rotateLeft (state[d] ^^^ state[a]) 16)
  let state := state.set c (state[c] + state[d])
  let state := state.set b (rotateLeft (state[b] ^^^ state[c]) 12)
  let state := state.set a (state[a] + state[b])
  let state := state.set d (rotateLeft (state[d] ^^^ state[a]) 8)
  let state := state.set c (state[c] + state[d])
  state.set b (rotateLeft (state[b] ^^^ state[c]) 7)

/-- A round on the columns and a round on the diagonals. -/
def doubleRound (state : State) : State :=
  let columns := quarterRound 3 7 11 15 <| quarterRound 2 6 10 14 <|
    quarterRound 1 5 9 13 <| quarterRound 0 4 8 12 state
  quarterRound 3 4 9 14 <| quarterRound 2 7 8 13 <|
    quarterRound 1 6 11 12 <| quarterRound 0 5 10 15 columns

/-- The state that a block starts from: four constants, the key, the number of the block and the
nonce, which is `0`. -/
def start (key : Key) (block : Nat) : State :=
  (#v[0x61707865, 0x3320646e, 0x79622d32, 0x6b206574] : Vector UInt32 4) ++ key ++
    (#v[UInt32.ofNat block, UInt32.ofNat (block >>> 32), 0, 0] : Vector UInt32 4)

/-- The words of a block after `doubleRounds` double rounds. -/
def block (doubleRounds : Nat) (key : Key) (number : Nat) : List UInt32 :=
  let initial := start key number
  let mixed := Nat.repeat doubleRound doubleRounds initial
  (mixed.zipWith (· + ·) initial).toList

end PeerWire.ChaCha
