import PeerWire.Bytes
import PeerWire.Randomness.ChaCha

/-! # Reproducible draws

Values drawn from a generator that a 64-bit seed fixes. The seed is stretched to a key, the key
gives a stream of words, and each draw takes some words off that stream. -/

namespace PeerWire.Randomness

/-! ## The generator -/

/-- A generator: its key, the next block, and the words of the current block not taken. -/
structure Generator where
  /-- What fixes the stream. -/
  key : ChaCha.Key
  /-- The number of the next block. -/
  nextBlock : Nat := 0
  /-- The words not taken. -/
  ready : List UInt32 := []

/-- A step of the linear congruence that stretches a seed: `state * 6364136223846793005 +
11634580027462260723`. -/
def stretchStep (state : UInt64) : UInt64 :=
  state * 6364136223846793005 + 11634580027462260723

/-- The word that a state of the congruence gives: its high half, folded and rotated by its
highest bits. -/
def stretchOutput (state : UInt64) : UInt32 :=
  let folded := (((state >>> 18) ^^^ state) >>> 27).toUInt32
  let count := (state >>> 59).toUInt32
  (folded >>> count) ||| (folded <<< ((32 - count) % 32))

/-- The key that a seed is stretched to: word `i` is that of step `i + 1`. -/
def keyOfSeed (seed : UInt64) : ChaCha.Key :=
  Vector.ofFn fun i => stretchOutput (Nat.repeat stretchStep (i.val + 1) seed)

/-- The double rounds of each block. -/
def doubleRounds : Nat := 4

namespace Generator

/-- The generator of a seed. -/
def ofSeed (seed : UInt64) : Generator := { key := keyOfSeed seed }

/-- Takes the next word. -/
def next (generator : Generator) : UInt32 × Generator :=
  match generator.ready with
  | word :: ready => (word, { generator with ready })
  | [] =>
      match ChaCha.block doubleRounds generator.key generator.nextBlock with
      | word :: ready => (word, { generator with ready, nextBlock := generator.nextBlock + 1 })
      | [] => (0, generator)

end Generator

/-! ## Draws -/

/-- A value that depends on the words of a generator. -/
abbrev Draw := StateM Generator

namespace Draw

/-- The value of a draw from a generator: `(draw generator).1`. -/
def value (draw : Draw α) (generator : Generator) : α := (draw generator).1

/-- A 32-bit number: one word. -/
def u32 : Draw UInt32 := fun generator => generator.next

/-- A 16-bit number: the low half of a word. -/
def u16 : Draw UInt16 := return (← u32).toUInt16

/-- A 64-bit number: two words, the low one first, `low ||| high <<< 32`. -/
def u64 : Draw UInt64 := do
  let low ← u32
  let high ← u32
  return low.toUInt64 ||| (high.toUInt64 <<< 32)

/-- A truth value: the highest bit of a word, `word >>> 31`. -/
def flag : Draw Bool := return (← u32) >>> 31 = 1

/-- The four bytes of a word, the lowest first. -/
def wordBytes (word : UInt32) : Bytes :=
  [word.toUInt8, (word >>> 8).toUInt8, (word >>> 16).toUInt8, (word >>> 24).toUInt8]

/-- The bytes of some more words; `done` holds the words so far, last one first. -/
def words : (count : Nat) → (done : List UInt32) → Draw (List UInt32)
  | 0, done => return done.reverse
  | count + 1, done => do
      let word ← u32
      words count (word :: done)

/-- A byte string: as many words as it takes, the rest of the last one discarded. -/
def octets (count : Nat) : Draw (Octets count) := do
  let words ← words ((count + 3) / 4) []
  let front := (words.flatMap wordBytes).take count
  return ⟨front ++ List.replicate (count - front.length) 0, by
    have : front.length ≤ count := List.length_take_le count _
    simp only [List.length_append, List.length_replicate]
    omega⟩

/-- True with probability two fifths: a 64-bit number below that share of all, where the share is
the nearest fraction with 53 binary digits. -/
def twoFifths : Draw Bool := return (← u64).toNat < 7378697629483821056

/-- How often a number is drawn again before a range gives up: `128` times. -/
def maxAttempts : Nat := 128

/-- A number below `range`, from draws of numbers of `width` bits: the high part of the product
with the range, if the low part is at most `zone`, so that every number is equally likely. -/
def below (draw : Draw Nat) (width range zone : Nat) : (attempts : Nat) → Draw Nat
  | 0 => return 0
  | attempts + 1 => do
      let product := (← draw) * range
      if product % (1 <<< width) ≤ zone then return product >>> width
      else below draw width range zone attempts

/-- The largest multiple of `range` by a power of two that a word of some width can hold, less
one. -/
def shiftedZone (width range : Nat) : Nat :=
  range <<< (width - 1 - range.log2) - 1

/-- A 32-bit number in a half-open range, from `low` up to `high`. -/
def u32In (low high : Nat) : Draw UInt32 := do
  let draw := do return (← u32).toNat
  let value ← below draw 32 (high - low) (shiftedZone 32 (high - low)) maxAttempts
  return UInt32.ofNat (low + value)

/-- A 64-bit number in a half-open range, from `low` up to `high`. -/
def u64In (low high : Nat) : Draw UInt64 := do
  let draw := do return (← u64).toNat
  let value ← below draw 64 (high - low) (shiftedZone 64 (high - low)) maxAttempts
  return UInt64.ofNat (low + value)

/-- A 16-bit number in a half-open range, from `low` up to `high`, drawn as a word; the zone is the
largest multiple of the range that a word can hold, less one. -/
def u16In (low high : Nat) : Draw UInt16 := do
  let range := high - low
  let draw := do return (← u32).toNat
  let value ← below draw 32 range (UInt32.size - 1 - (UInt32.size - range) % range) maxAttempts
  return UInt16.ofNat (low + value)

end Draw

end PeerWire.Randomness
