import PeerWire.Deflate.BitReader

/-! # Huffman codes given by their lengths

A code is fixed by the length of each symbol's code word: shorter words come first, and words of
one length stand in the order of their symbols. The words are the leaves of a binary tree, from
left to right. -/

namespace PeerWire.Deflate

/-- The part of a code below some bits already read. -/
inductive CodeTree where
  /-- No word starts with these bits. -/
  | empty
  /-- These bits are the word of a symbol. -/
  | symbol (value : Nat)
  /-- Words go on with a zero or a one. -/
  | node (zero one : CodeTree)
  deriving Repr

namespace CodeTree

/-- Reads the rest of a word. -/
def decode : CodeTree → BitReader → Except Fault (Nat × BitReader)
  | .empty, _ => .error .corrupt
  | .symbol value, reader => .ok (value, reader)
  | .node zero one, reader =>
      match reader.nextBit with
      | .error fault => .error fault
      | .ok (true, reader) => one.decode reader
      | .ok (false, reader) => zero.decode reader

/-- Reading the rest of a word leaves no more bits than there were. -/
theorem remaining_of_decode {tree : CodeTree} {reader next : BitReader} {value : Nat}
    (h : tree.decode reader = .ok (value, next)) : next.remaining ≤ reader.remaining := by
  induction tree generalizing reader with
  | empty => simp [decode] at h
  | symbol s =>
      obtain ⟨rfl, rfl⟩ := by simpa [decode] using h
      exact Nat.le_refl _
  | node zero one ihZero ihOne =>
      simp only [decode] at h
      split at h
      · simp at h
      · rename_i hbit
        exact Nat.le_of_lt (Nat.lt_of_le_of_lt (ihOne h) (BitReader.remaining_of_nextBit hbit))
      · rename_i hbit
        exact Nat.le_of_lt (Nat.lt_of_le_of_lt (ihZero h) (BitReader.remaining_of_nextBit hbit))

/-- Fills the subtree at a depth from words listed by length and symbol; `levels` more levels may
follow below. The result is the subtree and the words that found no place in it. -/
def fill : (levels depth : Nat) → List (Nat × Nat) → CodeTree × List (Nat × Nat)
  | _, _, [] => (.empty, [])
  | 0, depth, (length, value) :: rest =>
      if length = depth then (.symbol value, rest) else (.empty, (length, value) :: rest)
  | levels + 1, depth, (length, value) :: rest =>
      if length = depth then (.symbol value, rest)
      else
        let (zero, rest) := fill levels (depth + 1) ((length, value) :: rest)
        let (one, rest) := fill levels (depth + 1) rest
        (.node zero one, rest)

end CodeTree

/-- The longest code word. -/
def maxWordLength : Nat := 15

/-- A code: every word has at least one bit, so the words starting with a zero and with a one are
given apart. -/
structure HuffmanCode where
  /-- The words that start with a zero. -/
  zero : CodeTree
  /-- The words that start with a one. -/
  one : CodeTree
  deriving Repr

namespace HuffmanCode

/-- The words by length and then symbol, as pairs of length and symbol. Length 0 stands for a
symbol that has no word. -/
def wordOrder (lengths : List Nat) : List (Nat × Nat) :=
  (List.range maxWordLength).flatMap fun shorter =>
    lengths.zipIdx.filter fun word => word.1 = shorter + 1

/-- The share of all bit strings that the words take up, in units of the longest word: `1 <<<
(maxWordLength - length)` for each. -/
def weight (lengths : List Nat) : Nat :=
  lengths.foldl
    (fun sum length => if length = 0 then sum else sum + 1 <<< (maxWordLength - length)) 0

/-- The words take up every bit string: `weight lengths = 1 <<< maxWordLength`. -/
def isComplete (lengths : List Nat) : Bool := weight lengths = 1 <<< maxWordLength

/-- A code may be used when it `isComplete`, when it has no word, or when its only word is a single
bit. -/
def isUsable (lengths : List Nat) : Bool :=
  isComplete lengths || lengths.filter (· ≠ 0) = [] || lengths.filter (· ≠ 0) = [1]

/-- The code with the given word lengths. -/
def ofLengths (lengths : List Nat) : HuffmanCode :=
  let (zero, rest) := CodeTree.fill (maxWordLength - 1) 1 (wordOrder lengths)
  let (one, _) := CodeTree.fill (maxWordLength - 1) 1 rest
  ⟨zero, one⟩

/-- Reads one word. -/
def decode (code : HuffmanCode) (reader : BitReader) : Except Fault (Nat × BitReader) :=
  match reader.nextBit with
  | .error fault => .error fault
  | .ok (true, reader) => code.one.decode reader
  | .ok (false, reader) => code.zero.decode reader

/-- Reading a word leaves fewer bits. -/
theorem remaining_of_decode {code : HuffmanCode} {reader next : BitReader} {value : Nat}
    (h : code.decode reader = .ok (value, next)) : next.remaining < reader.remaining := by
  unfold decode at h
  split at h
  · simp at h
  · rename_i hbit
    exact Nat.lt_of_le_of_lt (CodeTree.remaining_of_decode h) (BitReader.remaining_of_nextBit hbit)
  · rename_i hbit
    exact Nat.lt_of_le_of_lt (CodeTree.remaining_of_decode h) (BitReader.remaining_of_nextBit hbit)

end HuffmanCode

end PeerWire.Deflate
