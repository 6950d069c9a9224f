import PeerWire.Deflate.Huffman

/-! # Tokens of a compressed block

Between bits and bytes a block is a list of tokens: a byte, a copy of earlier output, or the end
of the block. This module holds the tables of the copy lengths and distances, the fixed codes,
and the reading of one token. -/

namespace PeerWire.Deflate

/-- One step of a compressed block. -/
inductive Token where
  /-- A byte. -/
  | literal (byte : UInt8)
  /-- `length` bytes, each equal to the one `distance` places before it. -/
  | copy (length distance : Nat)
  /-- The end of the block. -/
  | endOfBlock
  deriving DecidableEq, Repr

/-- The shortest length and the number of extra bits of each length symbol, from `257` on. -/
def lengthTable : Array (Nat × Nat) := #[
  (3, 0), (4, 0), (5, 0), (6, 0), (7, 0), (8, 0), (9, 0), (10, 0), (11, 1), (13, 1), (15, 1),
  (17, 1), (19, 2), (23, 2), (27, 2), (31, 2), (35, 3), (43, 3), (51, 3), (59, 3), (67, 4),
  (83, 4), (99, 4), (115, 4), (131, 5), (163, 5), (195, 5), (227, 5), (258, 0)]

/-- The shortest distance and the number of extra bits of each distance symbol. -/
def distanceTable : Array (Nat × Nat) := #[
  (1, 0), (2, 0), (3, 0), (4, 0), (5, 1), (7, 1), (9, 2), (13, 2), (17, 3), (25, 3), (33, 4),
  (49, 4), (65, 5), (97, 5), (129, 6), (193, 6), (257, 7), (385, 7), (513, 8), (769, 8),
  (1025, 9), (1537, 9), (2049, 10), (3073, 10), (4097, 11), (6145, 11), (8193, 12), (12289, 12),
  (16385, 13), (24577, 13)]

/-- The two codes of a block. -/
structure BlockCodes where
  /-- Bytes, the end of the block, and copy lengths. -/
  literals : HuffmanCode
  /-- Copy distances. -/
  distances : HuffmanCode

/-- The word lengths of the fixed literal code. -/
def fixedLiteralLengths : List Nat :=
  List.replicate 144 8 ++ List.replicate 112 9 ++ List.replicate 24 7 ++ List.replicate 8 8

/-- The codes of a block that brings none of its own. -/
def BlockCodes.fixed : BlockCodes :=
  ⟨.ofLengths fixedLiteralLengths, .ofLengths (List.replicate 32 5)⟩

/-- Reads the extra bits of a symbol and adds them to the value that `table` gives. -/
def readTableValue (table : Array (Nat × Nat)) (index : Nat) (reader : BitReader) :
    Except Fault (Nat × BitReader) :=
  match table[index]? with
  | none => .error .corrupt
  | some (base, width) =>
      match reader.bits width with
      | .error fault => .error fault
      | .ok (extra, reader) => .ok (base + extra, reader)

/-- Reading a table value leaves no more bits than there were. -/
theorem remaining_of_readTableValue {table : Array (Nat × Nat)} {index value : Nat}
    {reader next : BitReader} (h : readTableValue table index reader = .ok (value, next)) :
    next.remaining ≤ reader.remaining := by
  unfold readTableValue at h
  split at h
  · simp at h
  · split at h
    · simp at h
    · rename_i hbits
      obtain ⟨rfl, rfl⟩ := by simpa using h
      exact BitReader.remaining_of_bits hbits

/-- Reads one token. -/
def BlockCodes.readToken (codes : BlockCodes) (reader : BitReader) :
    Except Fault (Token × BitReader) :=
  match codes.literals.decode reader with
  | .error fault => .error fault
  | .ok (symbol, reader) =>
      if symbol < 256 then .ok (.literal (UInt8.ofNat symbol), reader)
      else if symbol = 256 then .ok (.endOfBlock, reader)
      else
        match readTableValue lengthTable (symbol - 257) reader with
        | .error fault => .error fault
        | .ok (length, reader) =>
            match codes.distances.decode reader with
            | .error fault => .error fault
            | .ok (symbol, reader) =>
                match readTableValue distanceTable symbol reader with
                | .error fault => .error fault
                | .ok (distance, reader) => .ok (.copy length distance, reader)

/-- Reading a token leaves fewer bits: `next.remaining < reader.remaining`. -/
theorem BlockCodes.remaining_of_readToken {codes : BlockCodes} {reader next : BitReader}
    {token : Token} (h : codes.readToken reader = .ok (token, next)) :
    next.remaining < reader.remaining := by
  unfold readToken at h
  split at h
  · simp at h
  · rename_i hsymbol
    have hs := HuffmanCode.remaining_of_decode hsymbol
    split at h
    · obtain ⟨rfl, rfl⟩ := by simpa using h
      exact hs
    · split at h
      · obtain ⟨rfl, rfl⟩ := by simpa using h
        exact hs
      · split at h
        · simp at h
        · rename_i hlength
          have hl := remaining_of_readTableValue hlength
          split at h
          · simp at h
          · rename_i hdistance
            have hd := HuffmanCode.remaining_of_decode hdistance
            split at h
            · simp at h
            · rename_i hvalue
              have hv := remaining_of_readTableValue hvalue
              obtain ⟨rfl, rfl⟩ := by simpa using h
              omega

end PeerWire.Deflate
