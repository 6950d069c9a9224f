import Mathlib.Algebra.GroupWithZero.Nat
import Mathlib.Data.List.Forall2
import PeerWire.Deflate.Compress

/-! # The format of a deflate stream

Which bits stand for which bytes, said of lists of bits. A number is spelled lowest bit first
(`IsNumber`) and a code word highest bit first (`IsWord`); tokens, codes, blocks and streams are
made of numbers and words. An output grows from `out` to `result` along the bits of a block
(`IsBlock start out word result`), which start `start` bits behind the first bit of the stream. -/

namespace PeerWire.Deflate

/-- A number of some width, lowest bit first: `[false, true, true]` is `6`. -/
def IsNumber (width value : Nat) (word : List Bool) : Prop :=
  word.length = width ∧ ofBits word = value

/-! ## Code words -/

/-- The bit strings that start with a word, `2 ^ (15 - length)` for each length, out of the `2 ^ 15`
that are as long as the longest word. Length 0 stands for no word. -/
def share (lengths : List Nat) : Nat :=
  ((lengths.filter (· ≠ 0)).map fun length => 2 ^ (maxWordLength - length)).sum

/-- Of two words, given as `(length, symbol)`, the shorter one comes first, and of two words of one
length that of the smaller symbol. -/
def Before (word other : Nat × Nat) : Prop :=
  word.1 < other.1 ∨ word.1 = other.1 ∧ word.2 < other.2

instance (word other : Nat × Nat) : Decidable (Before word other) :=
  inferInstanceAs (Decidable (_ ∨ _))

/-- The word lengths of the symbols whose words come before that of a symbol. -/
def earlier (lengths : List Nat) (length symbol : Nat) : List Nat :=
  (lengths.zipIdx.filter (Before · (length, symbol))).map Prod.fst

/-- The word of a symbol in the code with the given word lengths. Read highest bit first, and
followed by zeros up to the longest length, it is `share (earlier lengths word.length symbol)`: the
words take up the bit strings from left to right. -/
def IsWord (lengths : List Nat) (symbol : Nat) (word : List Bool) : Prop :=
  word ≠ [] ∧ word.length ≤ maxWordLength ∧ lengths[symbol]? = some word.length ∧
    ofBits word.reverse * 2 ^ (maxWordLength - word.length) =
      share (earlier lengths word.length symbol)

/-- Every bit string starts with a word: the share of the lengths is all of `2 ^ 15`. -/
def Complete (lengths : List Nat) : Prop := share lengths = 2 ^ maxWordLength

instance (lengths : List Nat) : Decidable (Complete lengths) :=
  inferInstanceAs (Decidable (_ = _))

/-- A block may use a code that is complete, that has no word, or whose only word is one bit. -/
def Usable (lengths : List Nat) : Prop :=
  Complete lengths ∨ lengths.filter (· ≠ 0) = [] ∨ lengths.filter (· ≠ 0) = [1]

instance (lengths : List Nat) : Decidable (Usable lengths) :=
  inferInstanceAs (Decidable (_ ∨ _))

/-! ## Tokens -/

/-- The least length and the number of extra bits of the length symbol `257 + index`: from 8 on four
symbols have as many extra bits, up to the last one, which is 258 alone. -/
def lengthRange (index : Nat) : Option (Nat × Nat) :=
  if index < 8 then some (index + 3, 0)
  else if index < 28 then some ((4 + index % 4) * 2 ^ (index / 4 - 1) + 3, index / 4 - 1)
  else if index = 28 then some (258, 0)
  else none

/-- The least distance and the number of extra bits of a distance symbol: from 4 on two symbols have
as many extra bits. -/
def distanceRange (index : Nat) : Option (Nat × Nat) :=
  if index < 4 then some (index + 1, 0)
  else if index < 30 then some ((2 + index % 2) * 2 ^ (index / 2 - 1) + 1, index / 2 - 1)
  else none

/-- The extra bits that lead from the `least` value of a range to a value, `least + extra`. -/
def IsOffset (range : Option (Nat × Nat)) (value : Nat) (word : List Bool) : Prop :=
  ∃ least width extra, range = some (least, width) ∧ IsNumber width extra word ∧
    value = least + extra

/-- The words of a token, in the codes with the word lengths `literals` and `distances`. -/
inductive IsToken (literals distances : List Nat) : Token → List Bool → Prop where
  /-- A byte is the word of its number. -/
  | literal {byte : UInt8} {word : List Bool} :
      IsWord literals byte.toNat word → IsToken literals distances (.literal byte) word
  /-- The end of the block is a symbol of its own. -/
  | endOfBlock {word : List Bool} :
      IsWord literals 256 word → IsToken literals distances .endOfBlock word
  /-- A copy is a length symbol and a distance symbol, each with its extra bits. -/
  | copy {index symbol length distance : Nat} {first second third fourth : List Bool} :
      IsWord literals (257 + index) first → IsOffset (lengthRange index) length second →
      IsWord distances symbol third → IsOffset (distanceRange symbol) distance fourth →
      IsToken literals distances (.copy length distance) (first ++ (second ++ (third ++ fourth)))

/-- What a copy makes of an output: `length` more bytes, each equal to the one `distance` places
before it. Zeros stand before the first byte. -/
def IsCopy (distance length : Nat) (out result : Bytes) : Prop :=
  out <+: result ∧ result.length = out.length + length ∧
    ∀ place, out.length ≤ place → place < result.length →
      result[place]? = if place < distance then some 0 else result[place - distance]?

/-- The tokens of a block, up to its end. -/
inductive IsTokens (literals distances : List Nat) : Bytes → List Bool → Bytes → Prop where
  /-- The end of the block. -/
  | endOfBlock {out : Bytes} {word : List Bool} :
      IsToken literals distances .endOfBlock word → IsTokens literals distances out word out
  /-- A byte, and the tokens after it. -/
  | literal {out result : Bytes} {byte : UInt8} {word rest : List Bool} :
      IsToken literals distances (.literal byte) word →
      IsTokens literals distances (out ++ [byte]) rest result →
      IsTokens literals distances out (word ++ rest) result
  /-- A copy, and the tokens after it. -/
  | copy {out middle result : Bytes} {length distance : Nat} {word rest : List Bool} :
      IsToken literals distances (.copy length distance) word →
      IsCopy distance length out middle →
      IsTokens literals distances middle rest result →
      IsTokens literals distances out (word ++ rest) result

/-! ## Codes of a block -/

/-- Word lengths, from those there are already to all of them: lengths up to 15 stand for
themselves, 16 repeats the last length, and 17 and 18 stand for runs of zero. -/
inductive IsLengths (code : List Nat) : List Nat → List Bool → List Nat → Prop where
  /-- There are no more. -/
  | nil {done : List Nat} : IsLengths code done [] done
  /-- A length. -/
  | length {done all : List Nat} {length : Nat} {word rest : List Bool} :
      length < 16 → IsWord code length word → IsLengths code (done ++ [length]) rest all →
      IsLengths code done (word ++ rest) all
  /-- The last length, three to six times. -/
  | again {done all : List Nat} {last extra : Nat} {word more rest : List Bool} :
      IsWord code 16 word → IsNumber 2 extra more → done.getLast? = some last →
      IsLengths code (done ++ .replicate (3 + extra) last) rest all →
      IsLengths code done (word ++ (more ++ rest)) all
  /-- Three to ten zeros. -/
  | zeros {done all : List Nat} {extra : Nat} {word more rest : List Bool} :
      IsWord code 17 word → IsNumber 3 extra more →
      IsLengths code (done ++ .replicate (3 + extra) 0) rest all →
      IsLengths code done (word ++ (more ++ rest)) all
  /-- Eleven to 138 zeros. -/
  | manyZeros {done all : List Nat} {extra : Nat} {word more rest : List Bool} :
      IsWord code 18 word → IsNumber 7 extra more →
      IsLengths code (done ++ .replicate (11 + extra) 0) rest all →
      IsLengths code done (word ++ (more ++ rest)) all

/-- The symbols of the code for word lengths, in the order in which their own lengths are given. -/
def givenOrder : List Nat := [16, 17, 18, 0, 8, 7, 9, 6, 10, 5, 11, 4, 12, 3, 13, 2, 14, 1, 15]

/-- The word lengths of the code for word lengths: those `given` stand for the symbols of
`givenOrder`, and 0 for the symbols after them. -/
def IsLengthCode (given code : List Nat) : Prop :=
  code.length = 19 ∧ ∀ place (inside : place < givenOrder.length),
    code[givenOrder[place]]? = some (given.getD place 0)

/-- The codes that a block brings: three counts, the lengths for the code for word lengths, and the
lengths `literals ++ distances` in one run. -/
inductive IsCodes (literals distances : List Nat) : List Bool → Prop where
  /-- The codes have at most 286 and 30 symbols. -/
  | mk {given code : List Nat} {first second third lengths : List Bool}
      {numbers : List (List Bool)} :
      257 ≤ literals.length → literals.length ≤ 286 → 1 ≤ distances.length →
      distances.length ≤ 30 → 4 ≤ given.length →
      IsNumber 5 (literals.length - 257) first → IsNumber 5 (distances.length - 1) second →
      IsNumber 4 (given.length - 4) third → List.Forall₂ (IsNumber 3) given numbers →
      IsLengthCode given code → Complete code → IsLengths code [] lengths (literals ++ distances) →
      Usable literals → Usable distances →
      IsCodes literals distances (first ++ (second ++ (third ++ (numbers.flatten ++ lengths))))

/-! ## Blocks -/

/-- The word lengths of the literal code where a block brings none: 144 of 8, 112 of 9, 24 of 7 and
8 of 8 bits. -/
def fixedLiterals : List Nat :=
  (List.range 288).map fun symbol =>
    if symbol < 144 then 8 else if symbol < 256 then 9 else if symbol < 280 then 7 else 8

/-- The word lengths of the distance code that is used where a block brings none. -/
def fixedDistances : List Nat := (List.range 32).map fun _ => 5

/-- The plain bytes of a block, from the next byte border on behind their number and its
complement. -/
inductive IsStored (start : Nat) : Bytes → List Bool → Prop where
  /-- There are at most 65535 bytes. -/
  | mk {padding first second : List Bool} {content : Bytes} :
      padding.length < 8 → 8 ∣ start + padding.length → IsNumber 16 content.length first →
      IsNumber 16 (65535 - content.length) second →
      IsStored start content (padding ++ (first ++ (second ++ content.flatMap byteBits)))

/-- A block behind the bit that says whether it is the last: its kind and what it holds. -/
inductive IsBlock (start : Nat) (out : Bytes) : List Bool → Bytes → Prop where
  /-- Plain bytes. -/
  | stored {content : Bytes} {word : List Bool} :
      IsStored (start + 2) content word →
      IsBlock start out ([false, false] ++ word) (out ++ content)
  /-- Tokens in the fixed codes. -/
  | fixed {word : List Bool} {result : Bytes} :
      IsTokens fixedLiterals fixedDistances out word result →
      IsBlock start out ([true, false] ++ word) result
  /-- Codes, and tokens in these codes. -/
  | dynamic {literals distances : List Nat} {front back : List Bool} {result : Bytes} :
      IsCodes literals distances front → IsTokens literals distances out back result →
      IsBlock start out ([false, true] ++ (front ++ back)) result

/-- Blocks up to the one marked as the last, from `out` to `result`. The block at bit `start` begins
with the mark, `true` for the last. -/
inductive IsStream : (start : Nat) → (out : Bytes) → List Bool → (result : Bytes) → Prop where
  /-- The last block. -/
  | last {start : Nat} {out result : Bytes} {word : List Bool} :
      IsBlock (start + 1) out word result → IsStream start out (true :: word) result
  /-- A block before others. -/
  | more {start : Nat} {out middle result : Bytes} {word rest : List Bool} :
      IsBlock (start + 1) out word middle → IsStream (start + 1 + word.length) middle rest result →
      IsStream start out (false :: (word ++ rest)) result

/-- **A deflate stream that gives some content** and ends with its last byte: the bits behind its
last block, fewer than eight, fill that byte up. -/
def Gives (deflated content : Bytes) : Prop :=
  ∃ word padding, deflated.flatMap byteBits = word ++ padding ∧ padding.length < 8 ∧
    IsStream 0 [] word content

end PeerWire.Deflate
