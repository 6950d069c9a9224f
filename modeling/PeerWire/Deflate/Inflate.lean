import PeerWire.Deflate.Token

/-! # Inflating

From the bits of a compressed stream to its bytes: blocks that are stored, that use the fixed
codes, or that bring their own. Output stops with a fault as soon as it passes a limit. -/

namespace PeerWire.Deflate

/-- The byte `distance` places before the end; zeros stand before the first byte. -/
def byteBefore (distance : Nat) (out : ByteArray) : UInt8 :=
  if out.size < distance then 0 else out[out.size - distance]?.getD 0

/-- Appends bytes, each equal to the one `distance` places before it. -/
def copyBack (distance : Nat) : (length : Nat) → (out : ByteArray) → ByteArray
  | 0, out => out
  | length + 1, out => copyBack distance length (out.push (byteBefore distance out))

/-- Carries out the tokens of a block up to its end, while the output keeps `limit`. -/
def inflateTokens (codes : BlockCodes) (limit : Nat) (reader : BitReader) (out : ByteArray) :
    Except Fault (ByteArray × BitReader) :=
  match _h : codes.readToken reader with
  | .error fault => .error fault
  | .ok (.endOfBlock, next) => .ok (out, next)
  | .ok (.literal byte, next) =>
      if out.size + 1 > limit then .error .overLimit
      else inflateTokens codes limit next (out.push byte)
  | .ok (.copy length distance, next) =>
      if out.size + length > limit then .error .overLimit
      else inflateTokens codes limit next (copyBack distance length out)
  termination_by reader.remaining
  decreasing_by all_goals exact BlockCodes.remaining_of_readToken _h

/-- Appends the bytes of a stored block, `length` of them. -/
def copyStored (limit : Nat) : (length : Nat) → Bytes → ByteArray →
    Except Fault (ByteArray × BitReader)
  | 0, bytes, out => .ok (out, .ofBytes bytes)
  | _ + 1, [], _ => .error .incomplete
  | length + 1, byte :: bytes, out =>
      if out.size + 1 > limit then .error .overLimit
      else copyStored limit length bytes (out.push byte)

/-- A stored block: its length, the complement of its length, and its bytes, from a byte border. -/
def inflateStored (limit : Nat) (reader : BitReader) (out : ByteArray) :
    Except Fault (ByteArray × BitReader) :=
  match reader.align.bits 16 with
  | .error fault => .error fault
  | .ok (length, reader) =>
      match reader.bits 16 with
      | .error fault => .error fault
      | .ok (complement, reader) =>
          if length + complement = 65535 then copyStored limit length reader.bytes out
          else .error .corrupt

/-- The order in which the word lengths of the code for word lengths are given. -/
def lengthCodeOrder : List Nat :=
  [16, 17, 18, 0, 8, 7, 9, 6, 10, 5, 11, 4, 12, 3, 13, 2, 14, 1, 15]

/-- Reads word lengths of three bits each for the listed symbols, as pairs of symbol and length. -/
def readLengthCode : List Nat → BitReader → Except Fault (List (Nat × Nat) × BitReader)
  | [], reader => .ok ([], reader)
  | symbol :: symbols, reader =>
      match reader.bits 3 with
      | .error fault => .error fault
      | .ok (length, reader) =>
          match readLengthCode symbols reader with
          | .error fault => .error fault
          | .ok (rest, reader) => .ok ((symbol, length) :: rest, reader)

/-- Reads word lengths until there are `count`; `done` holds those read, last one first. Symbol 16
repeats the last length, 17 and 18 stand for runs of zero. -/
def readLengths (code : HuffmanCode) (count : Nat) (done : List Nat) (reader : BitReader) :
    Except Fault (List Nat × BitReader) :=
  if done.length = count then .ok (done.reverse, reader)
  else if done.length > count then .error .corrupt
  else
    match code.decode reader with
    | .error fault => .error fault
    | .ok (symbol, next) =>
        if symbol < 16 then readLengths code count (symbol :: done) next
        else if symbol = 16 then
          match done.head? with
          | none => .error .corrupt
          | some last =>
              match next.bits 2 with
              | .error fault => .error fault
              | .ok (extra, next) =>
                  readLengths code count (List.replicate (3 + extra) last ++ done) next
        else
          match next.bits (if symbol = 17 then 3 else 7) with
          | .error fault => .error fault
          | .ok (extra, next) =>
              let run := 3 + (if symbol = 17 then extra else extra + 8)
              readLengths code count (List.replicate run 0 ++ done) next
  termination_by count - done.length
  decreasing_by all_goals simp; omega

/-- Reads the codes of a block that brings its own. -/
def readCodes (reader : BitReader) : Except Fault (BlockCodes × BitReader) :=
  match reader.bits 14 with
  | .error fault => .error fault
  | .ok (counts, reader) =>
      let literals := counts % 32 + 257
      let distances := counts / 32 % 32 + 1
      if literals > 286 || distances > 30 then .error .corrupt
      else
        match readLengthCode (lengthCodeOrder.take (counts / 1024 + 4)) reader with
        | .error fault => .error fault
        | .ok (given, reader) =>
            let lengths := (List.range 19).map fun symbol => (given.lookup symbol).getD 0
            if !HuffmanCode.isComplete lengths then .error .corrupt
            else
              match readLengths (.ofLengths lengths) (literals + distances) [] reader with
              | .error fault => .error fault
              | .ok (all, reader) =>
                  if HuffmanCode.isUsable (all.take literals) &&
                      HuffmanCode.isUsable (all.drop literals) then
                    .ok (⟨.ofLengths (all.take literals), .ofLengths (all.drop literals)⟩, reader)
                  else .error .corrupt

/-- What a block header announces. -/
inductive BlockKind where
  /-- Plain bytes. -/
  | stored
  /-- Tokens in the fixed codes. -/
  | fixed
  /-- Tokens in codes of its own. -/
  | dynamic
  deriving DecidableEq, Repr

/-- The kind of block written by two header bits; `none` for `3`. -/
def BlockKind.ofNat? : Nat → Option BlockKind
  | 0 => some .stored
  | 1 => some .fixed
  | 2 => some .dynamic
  | _ => none

/-- Carries out a block after its header. -/
def inflateBlock (limit : Nat) (kind : BlockKind) (reader : BitReader) (out : ByteArray) :
    Except Fault (ByteArray × BitReader) :=
  match kind with
  | .stored => inflateStored limit reader out
  | .fixed => inflateTokens .fixed limit reader out
  | .dynamic =>
      match readCodes reader with
      | .error fault => .error fault
      | .ok (codes, reader) => inflateTokens codes limit reader out

/-! ## Blocks leave no more bits than there were -/

/-- Carrying out tokens leaves no more bits than there were: `next.remaining ≤ reader.remaining`. -/
theorem remaining_of_inflateTokens {codes : BlockCodes} {limit : Nat}
    {reader next : BitReader} {out result : ByteArray}
    (h : inflateTokens codes limit reader out = .ok (result, next)) :
    next.remaining ≤ reader.remaining := by
  fun_induction inflateTokens codes limit reader out with
  | case1 => simp at h
  | case2 reader out after htoken =>
      obtain ⟨rfl, rfl⟩ := by simpa using h
      exact Nat.le_of_lt (BlockCodes.remaining_of_readToken htoken)
  | case3 => simp at h
  | case4 reader out byte after htoken _ ih =>
      exact Nat.le_trans (ih h) (Nat.le_of_lt (BlockCodes.remaining_of_readToken htoken))
  | case5 => simp at h
  | case6 reader out length distance after htoken _ ih =>
      exact Nat.le_trans (ih h) (Nat.le_of_lt (BlockCodes.remaining_of_readToken htoken))

/-- A stored block leaves no more bits than there were: `8 * bytes.length`. -/
theorem remaining_of_copyStored {limit length : Nat} {bytes : Bytes} {next : BitReader}
    {out result : ByteArray} (h : copyStored limit length bytes out = .ok (result, next)) :
    next.remaining ≤ 8 * bytes.length := by
  fun_induction copyStored limit length bytes out with
  | case1 bytes out =>
      obtain ⟨rfl, rfl⟩ := by simpa using h
      simp [BitReader.remaining, BitReader.ofBytes]
  | case2 => simp at h
  | case3 => simp at h
  | case4 length out byte bytes _ ih =>
      have := ih h
      simp only [List.length_cons]
      omega

/-- A stored block leaves no more bits than there were before its lengths. -/
theorem remaining_of_inflateStored {limit : Nat} {reader next : BitReader}
    {out result : ByteArray} (h : inflateStored limit reader out = .ok (result, next)) :
    next.remaining ≤ reader.remaining := by
  unfold inflateStored at h
  split at h
  · simp at h
  · rename_i hlength
    split at h
    · simp at h
    · rename_i afterLengths hcomplement
      split at h
      · have hcopy := remaining_of_copyStored h
        have hfirst := BitReader.remaining_of_bits hlength
        have hsecond := BitReader.remaining_of_bits hcomplement
        have halign := reader.remaining_align
        have : 8 * afterLengths.bytes.length ≤ afterLengths.remaining := by
          simp [BitReader.remaining]
        omega
      · simp at h

/-- Reading the code for word lengths leaves no more bits than there were. -/
theorem remaining_of_readLengthCode {symbols : List Nat} {reader next : BitReader}
    {given : List (Nat × Nat)} (h : readLengthCode symbols reader = .ok (given, next)) :
    next.remaining ≤ reader.remaining := by
  induction symbols generalizing reader given next with
  | nil =>
      obtain ⟨rfl, rfl⟩ := by simpa [readLengthCode] using h
      exact Nat.le_refl _
  | cons symbol symbols ih =>
      simp only [readLengthCode] at h
      split at h
      · simp at h
      · rename_i hbits
        split at h
        · simp at h
        · rename_i hrest
          obtain ⟨rfl, rfl⟩ := by simpa using h
          exact Nat.le_trans (ih hrest) (BitReader.remaining_of_bits hbits)

/-- Reading word lengths leaves no more bits than there were. -/
theorem remaining_of_readLengths {code : HuffmanCode} {count : Nat} {done lengths : List Nat}
    {reader next : BitReader} (h : readLengths code count done reader = .ok (lengths, next)) :
    next.remaining ≤ reader.remaining := by
  fun_induction readLengths code count done reader with
  | case1 =>
      obtain ⟨rfl, rfl⟩ := by simpa using h
      exact Nat.le_refl _
  | case2 => simp at h
  | case3 => simp at h
  | case4 done reader _ _ symbol after hsymbol _ ih =>
      exact Nat.le_trans (ih h) (Nat.le_of_lt (HuffmanCode.remaining_of_decode hsymbol))
  | case5 => simp at h
  | case6 => simp at h
  | case7 done reader _ _ after last _ extra rest hbits hsymbol _ ih =>
      exact Nat.le_trans (ih h) (Nat.le_trans (BitReader.remaining_of_bits hbits)
        (Nat.le_of_lt (HuffmanCode.remaining_of_decode hsymbol)))
  | case8 => simp at h
  | case9 done reader _ _ symbol after hsymbol _ _ extra rest hbits run ih =>
      exact Nat.le_trans (ih h) (Nat.le_trans (BitReader.remaining_of_bits hbits)
        (Nat.le_of_lt (HuffmanCode.remaining_of_decode hsymbol)))

/-- Reading the codes of a block leaves no more bits than there were. -/
theorem remaining_of_readCodes {reader next : BitReader} {codes : BlockCodes}
    (h : readCodes reader = .ok (codes, next)) : next.remaining ≤ reader.remaining := by
  unfold readCodes at h
  split at h
  · simp at h
  · rename_i hcounts
    have hfirst := BitReader.remaining_of_bits hcounts
    dsimp only at h
    split at h
    · simp at h
    · split at h
      · simp at h
      · rename_i hgiven
        have hsecond := remaining_of_readLengthCode hgiven
        split at h
        · simp at h
        · split at h
          · simp at h
          · rename_i hlengths
            have hthird := remaining_of_readLengths hlengths
            split at h
            · obtain ⟨rfl, rfl⟩ := by simpa using h
              omega
            · simp at h

/-- A block leaves no more bits than there were after its header. -/
theorem remaining_of_inflateBlock {limit : Nat} {kind : BlockKind} {reader next : BitReader}
    {out result : ByteArray} (h : inflateBlock limit kind reader out = .ok (result, next)) :
    next.remaining ≤ reader.remaining := by
  unfold inflateBlock at h
  split at h
  · exact remaining_of_inflateStored h
  · exact remaining_of_inflateTokens h
  · split at h
    · simp at h
    · rename_i hcodes
      exact Nat.le_trans (remaining_of_inflateTokens h) (remaining_of_readCodes hcodes)

/-! ## Streams -/

/-- Carries out blocks up to the one marked as the last, while the output keeps `limit`. -/
def inflateBlocks (limit : Nat) (reader : BitReader) (out : ByteArray) :
    Except Fault (ByteArray × BitReader) :=
  match _header : reader.bits 3 with
  | .error fault => .error fault
  | .ok (header, start) =>
      match BlockKind.ofNat? (header / 2) with
      | none => .error .corrupt
      | some kind =>
          match _block : inflateBlock limit kind start out with
          | .error fault => .error fault
          | .ok (out, next) =>
              if header % 2 = 1 then .ok (out, next) else inflateBlocks limit next out
  termination_by reader.remaining
  decreasing_by
    exact Nat.lt_of_le_of_lt (remaining_of_inflateBlock _block)
      (BitReader.remaining_of_bits_succ _header)

end PeerWire.Deflate
