import PeerWire.Deflate.Inflate
import PeerWire.Deflate.Section
import PeerWire.Deflate.WordLengths

/-! # Writing blocks

From a section of the input to the bits of a block: in the fixed codes when it is short, in codes
of its own when it is long, and stored when compressing it saves nothing. -/

namespace PeerWire.Deflate

/-! ## Words -/

/-- The words of a tree, each with its symbol, below the bits read so far, `stem`. -/
def CodeTree.words (stem : List Bool) : CodeTree → List (Nat × List Bool)
  | .empty => []
  | .symbol value => [(value, stem)]
  | .node zero one => zero.words (stem ++ [false]) ++ one.words (stem ++ [true])

/-- The words of a code by symbol; none for a symbol that has no word. -/
def HuffmanCode.words (code : HuffmanCode) : Array (List Bool) :=
  (code.zero.words [false] ++ code.one.words [true]).foldl
    (fun words word => words.setIfInBounds word.1 word.2) (Array.replicate 288 [])

/-- The words of both codes of a block. -/
structure BlockWords where
  /-- For bytes, the end of the block, and copy lengths. -/
  literals : Array (List Bool)
  /-- For copy distances. -/
  distances : Array (List Bool)

/-- The words of the codes with the given word lengths. -/
def BlockWords.ofLengths (literals distances : List Nat) : BlockWords :=
  ⟨(HuffmanCode.ofLengths literals).words, (HuffmanCode.ofLengths distances).words⟩

/-! ## Tokens -/

/-- The `width` lowest bits of a number, least significant first. -/
def numberBits (width value : Nat) : List Bool :=
  (List.range width).map value.testBit

/-- The last entry of a table whose shortest value does not exceed the given one: its index and
itself. -/
def tableEntry (table : Array (Nat × Nat)) (value : Nat) : Nat × Nat × Nat :=
  table.toList.zipIdx.foldl
    (fun found entry => if entry.1.1 ≤ value then (entry.2, entry.1) else found) (0, 0, 0)

/-- The symbol a token has in the literal code. -/
def Token.literalSymbol : Token → Nat
  | .literal byte => byte.toNat
  | .endOfBlock => 256
  | .copy length _ => 257 + (tableEntry lengthTable length).1

/-- The symbol a copy has in the distance code. -/
def Token.distanceSymbol? : Token → Option Nat
  | .copy _ distance => some (tableEntry distanceTable distance).1
  | _ => none

/-- The bits by which a value exceeds the shortest one of its table entry: `value - shortest`. -/
def extraBits (table : Array (Nat × Nat)) (value : Nat) : List Bool :=
  let (_, shortest, width) := tableEntry table value
  numberBits width (value - shortest)

/-- The bits of a token. -/
def Token.bits (words : BlockWords) (token : Token) : List Bool :=
  let word := words.literals.getD token.literalSymbol []
  match token with
  | .copy length distance =>
      word ++ extraBits lengthTable length ++
        words.distances.getD (tableEntry distanceTable distance).1 [] ++
        extraBits distanceTable distance
  | _ => word

/-- How often each of the symbols below `bound` is listed. -/
def countSymbols (bound : Nat) (symbols : List Nat) : List Nat :=
  (symbols.foldl (fun counts symbol => counts.modify symbol (· + 1))
    (Array.replicate bound 0)).toList

/-! ## Word lengths -/

/-- A step in a list of word lengths. -/
inductive LengthStep where
  /-- One length. -/
  | single (length : Nat)
  /-- Three to six times the length before. -/
  | again (count : Nat)
  /-- Three to 138 lengths of zero. -/
  | zeros (count : Nat)
  deriving DecidableEq, Repr

namespace LengthStep

/-- The symbol of a step in the code for word lengths. -/
def symbol : LengthStep → Nat
  | .single length => length
  | .again _ => 16
  | .zeros count => if count ≤ 10 then 17 else 18

/-- The bits that follow the symbol of a step. -/
def countBits : LengthStep → List Bool
  | .single _ => []
  | .again count => numberBits 2 (count - 3)
  | .zeros count => if count ≤ 10 then numberBits 3 (count - 3) else numberBits 7 (count - 11)

/-- The steps for a number of equal lengths: as many as possible in steps of the longest kind, and
the rest in one step if it is long enough. -/
def repeated (length longest : Nat) (step : Nat → LengthStep) (count : Nat) : List LengthStep :=
  let rest := count % longest
  List.replicate (count / longest) (step longest) ++
    if rest < 3 then List.replicate rest (.single length) else [step rest]

/-- The steps for a run of equal lengths. -/
def ofRun : List Nat → List LengthStep
  | [] => []
  | 0 :: rest => repeated 0 138 .zeros (rest.length + 1)
  | length :: rest => .single length :: repeated length 6 .again rest.length

/-- The steps for a list of lengths. -/
def ofLengths (lengths : List Nat) : List LengthStep :=
  (lengths.splitBy (· == ·)).flatMap ofRun

end LengthStep

/-- Leaves out the zeros at the end, but keeps some first entries. -/
def trimLengths (least : Nat) (lengths : List Nat) : List Nat :=
  lengths.take (max least (lengths.reverse.dropWhile (· = 0)).length)

/-- The bits that give the codes of a block: how many word lengths of either code there are, the
code for word lengths, and the word lengths. -/
def codesBits (literals distances : List Nat) : List Bool :=
  let steps := LengthStep.ofLengths (literals ++ distances)
  let lengths := wordLengths 7 (countSymbols 19 (steps.map LengthStep.symbol))
  let words := (HuffmanCode.ofLengths lengths).words
  let given := trimLengths 4 (lengthCodeOrder.map fun symbol => lengths.getD symbol 0)
  numberBits 5 (literals.length - 257) ++ numberBits 5 (distances.length - 1) ++
    numberBits 4 (given.length - 4) ++ given.flatMap (numberBits 3) ++
    steps.flatMap fun step => words.getD step.symbol [] ++ step.countBits

/-! ## Blocks -/

/-- The bits of tokens in the fixed codes, after those of their kind of block. -/
def fixedBits (tokens : List Token) : List Bool :=
  [true, false] ++
    tokens.flatMap (Token.bits (.ofLengths fixedLiteralLengths (List.replicate 32 5)))

/-- The bits of tokens in codes of their own, after those of their kind of block. -/
def dynamicBits (tokens : List Token) : List Bool :=
  let literals := trimLengths 257
    (wordLengths maxWordLength (countSymbols 286 (tokens.map Token.literalSymbol)))
  let distances := trimLengths 1
    (wordLengths maxWordLength (countSymbols 30 (tokens.filterMap Token.distanceSymbol?)))
  [false, true] ++ codesBits literals distances ++
    tokens.flatMap (Token.bits (.ofLengths literals distances))

/-- The bits of bytes as they are, after those of their kind of block. `offset` bits of a byte are
already taken; the lengths start at the next byte. -/
def storedBits (offset : Nat) (bytes : Bytes) : List Bool :=
  [false, false] ++ List.replicate ((8 - (offset + 2) % 8) % 8) false ++
    numberBits 16 bytes.length ++ numberBits 16 (65535 - bytes.length) ++
    bytes.flatMap byteBits

namespace Section

/-- Sections of fewer bytes use the fixed codes. -/
def minDynamicSize : Nat := 48

/-- Sections of no more bytes are never stored. -/
def maxCompressedSize : Nat := 32

/-- The bytes of a section: `size` of them from `start` on. -/
def content (cutting : Section) (bytes : ByteArray) : Bytes :=
  (bytes.extract cutting.start (cutting.start + cutting.size)).data.toList

/-- The bits of a section as a block, which begin with the mark of the last block. `offset` bits
of a byte are already taken. -/
def bits (cutting : Section) (bytes : ByteArray) (isLast : Bool) (offset : Nat) : List Bool :=
  let tokens := (.endOfBlock :: cutting.tokens).reverse
  let start := (offset + 1) % 8
  let compressed :=
    if cutting.size < minDynamicSize then fixedBits tokens else dynamicBits tokens
  let savesNothing := cutting.size ≤ (start + compressed.length) / 8 + 1
  if maxCompressedSize < cutting.size && savesNothing && cutting.isWithinReach then
    isLast :: storedBits start (cutting.content bytes)
  else isLast :: compressed

/-- The bits of sections as blocks; `offset` bits of a byte are already taken. -/
def bitsOfAll (bytes : ByteArray) (offset : Nat) : List Section → List Bool
  | [] => []
  | cutting :: rest =>
      let bits := cutting.bits bytes rest.isEmpty offset
      bits ++ bitsOfAll bytes ((offset + bits.length) % 8) rest

end Section

end PeerWire.Deflate
