import PeerWire.Deflate.Inflate
import Mathlib.Data.List.Basic

/-! # What a bit reader looks at

Reading from a compressed stream is *local*: a read that succeeds looks at the bytes it uses up and
at no others, so whatever follows them may be exchanged without a change to the result. That is why
a stream ends at a definite byte and why what comes after it does not matter. -/

namespace PeerWire.Deflate

variable {α : Type}

/-- A read that succeeds uses up some bytes, `used`, and does not look at those after them, whatever
`tail` they are. -/
def Local (read : BitReader → Except Fault (α × BitReader)) : Prop :=
  ∀ reader value next, read reader = .ok (value, next) →
    ∃ used, reader.bytes = used ++ next.bytes ∧
      ∀ tail, read ⟨reader.pending, used ++ tail⟩ = .ok (value, ⟨next.pending, tail⟩)

/-! ## Bits and numbers -/

/-- A bit is taken from the current byte or from the next one. -/
theorem BitReader.local_nextBit : Local nextBit := by
  intro reader value next run
  unfold nextBit at run
  split at run
  · cases run
    exact ⟨[], rfl, fun tail => rfl⟩
  · rename_i byte bytes
    cases run
    exact ⟨[byte], rfl, fun tail => rfl⟩
  · cases run

/-- A number of `width` bits is read bit by bit. -/
theorem BitReader.local_bits (width : Nat) : Local (bits width) := by
  induction width with
  | zero =>
      intro reader value next run
      cases run
      exact ⟨[], rfl, fun tail => rfl⟩
  | succ width ih =>
      intro reader value next run
      rw [bits] at run
      split at run
      · cases run
      · rename_i bit middle hbit
        split at run
        · cases run
        · rename_i hrest
          cases run
          obtain ⟨used, front, again⟩ := local_nextBit _ _ _ hbit
          obtain ⟨used', front', again'⟩ := ih _ _ _ hrest
          refine ⟨used ++ used', by rw [front, front', List.append_assoc], fun tail => ?_⟩
          simp only [bits, List.append_assoc, again, again']

/-! ## Code words and tokens -/

/-- The rest of a code word is read bit by bit. -/
theorem CodeTree.local_decode (tree : CodeTree) : Local tree.decode := by
  induction tree with
  | empty =>
      intro reader value next run
      cases run
  | symbol value =>
      intro reader value next run
      cases run
      exact ⟨[], rfl, fun tail => rfl⟩
  | node zero one ihZero ihOne =>
      intro reader value next run
      rw [decode] at run
      split at run
      · cases run
      · rename_i hbit
        obtain ⟨used, front, again⟩ := BitReader.local_nextBit _ _ _ hbit
        obtain ⟨used', front', again'⟩ := ihOne _ _ _ run
        refine ⟨used ++ used', by rw [front, front', List.append_assoc], fun tail => ?_⟩
        simp only [decode, List.append_assoc, again, again']
      · rename_i hbit
        obtain ⟨used, front, again⟩ := BitReader.local_nextBit _ _ _ hbit
        obtain ⟨used', front', again'⟩ := ihZero _ _ _ run
        refine ⟨used ++ used', by rw [front, front', List.append_assoc], fun tail => ?_⟩
        simp only [decode, List.append_assoc, again, again']

/-- A code is read as the tree of its two halves, `CodeTree.node code.zero code.one`. -/
theorem HuffmanCode.decode_eq (code : HuffmanCode) (reader : BitReader) :
    code.decode reader = (CodeTree.node code.zero code.one).decode reader := by
  rw [decode, CodeTree.decode]

/-- A code word is read bit by bit. -/
theorem HuffmanCode.local_decode (code : HuffmanCode) : Local code.decode := by
  rw [show code.decode = (CodeTree.node code.zero code.one).decode from funext code.decode_eq]
  exact CodeTree.local_decode _

/-- A table value is that of the table and the bits it asks for. -/
theorem local_readTableValue (table : Array (Nat × Nat)) (index : Nat) :
    Local (readTableValue table index) := by
  intro reader value next run
  unfold readTableValue at run
  split at run
  · cases run
  · rename_i base width entry
    split at run
    · cases run
    · rename_i hbits
      cases run
      obtain ⟨used, front, again⟩ := BitReader.local_bits width _ _ _ hbits
      refine ⟨used, front, fun tail => ?_⟩
      simp only [readTableValue, entry, again]

/-- A token is read word by word. -/
theorem BlockCodes.local_readToken (codes : BlockCodes) : Local codes.readToken := by
  intro reader token next run
  unfold readToken at run
  split at run
  · cases run
  · rename_i symbol middle hsymbol
    obtain ⟨used, front, again⟩ := codes.literals.local_decode _ _ _ hsymbol
    split at run
    · rename_i isLiteral
      cases run
      refine ⟨used, front, fun tail => ?_⟩
      simp only [readToken, again, if_pos isLiteral]
    · rename_i notLiteral
      split at run
      · rename_i isEnd
        cases run
        refine ⟨used, front, fun tail => ?_⟩
        simp only [readToken, again, if_neg notLiteral, if_pos isEnd]
      · rename_i notEnd
        -- A copy is a length and a distance, each a word and the extra bits it asks for.
        split at run
        · cases run
        · rename_i length afterLength hlength
          obtain ⟨used₁, front₁, again₁⟩ := local_readTableValue _ _ _ _ _ hlength
          split at run
          · cases run
          · rename_i symbol' afterSymbol hsymbol'
            obtain ⟨used₂, front₂, again₂⟩ := codes.distances.local_decode _ _ _ hsymbol'
            split at run
            · cases run
            · rename_i distance afterDistance hdistance
              cases run
              obtain ⟨used₃, front₃, again₃⟩ := local_readTableValue _ _ _ _ _ hdistance
              refine ⟨used ++ (used₁ ++ (used₂ ++ used₃)), ?_, fun tail => ?_⟩
              · simp only [front, front₁, front₂, front₃, List.append_assoc]
              · simp only [readToken, List.append_assoc, again, if_neg notLiteral, if_neg notEnd,
                  again₁, again₂, again₃]

/-! ## Codes of a block -/

/-- The code for word lengths is read number by number. -/
theorem local_readLengthCode (symbols : List Nat) : Local (readLengthCode symbols) := by
  induction symbols with
  | nil =>
      intro reader given next run
      cases run
      exact ⟨[], rfl, fun tail => rfl⟩
  | cons symbol symbols ih =>
      intro reader given next run
      rw [readLengthCode] at run
      split at run
      · cases run
      · rename_i length middle hbits
        split at run
        · cases run
        · rename_i hrest
          cases run
          obtain ⟨used, front, again⟩ := BitReader.local_bits 3 _ _ _ hbits
          obtain ⟨used', front', again'⟩ := ih _ _ _ hrest
          refine ⟨used ++ used', by rw [front, front', List.append_assoc], fun tail => ?_⟩
          simp only [readLengthCode, List.append_assoc, again, again']

section Lengths

variable {code : HuffmanCode} {count : Nat} {done : List Nat} {reader next after : BitReader}

/-- A symbol below 16 is a length: the lengths after it go on with `length :: done`. -/
theorem readLengths_of_length {length : Nat} (few : done.length < count)
    (read : code.decode reader = .ok (length, next)) (isLength : length < 16) :
    readLengths code count done reader = readLengths code count (length :: done) next := by
  rw [readLengths, if_neg (Nat.ne_of_lt few), if_neg (Nat.lt_asymm few), read]
  simp only [if_pos isLength]

/-- Symbol 16 repeats the last length, `3 + extra` times. -/
theorem readLengths_of_again {last extra : Nat} (few : done.length < count)
    (read : code.decode reader = .ok (16, next)) (hlast : done.head? = some last)
    (times : next.bits 2 = .ok (extra, after)) :
    readLengths code count done reader =
      readLengths code count (List.replicate (3 + extra) last ++ done) after := by
  rw [readLengths, if_neg (Nat.ne_of_lt few), if_neg (Nat.lt_asymm few), read]
  simp only [if_neg (Nat.lt_irrefl 16), if_true, hlast, times]

/-- The symbols above 16 stand for runs of zeros: `3 + extra` of them at symbol 17, and eight more
at a higher one. -/
theorem readLengths_of_zeros {symbol extra : Nat} (few : done.length < count)
    (read : code.decode reader = .ok (symbol, next)) (isZeros : 16 < symbol)
    (times : next.bits (if symbol = 17 then 3 else 7) = .ok (extra, after)) :
    readLengths code count done reader =
      readLengths code count
        (List.replicate (3 + if symbol = 17 then extra else extra + 8) 0 ++ done) after := by
  rw [readLengths, if_neg (Nat.ne_of_lt few), if_neg (Nat.lt_asymm few), read]
  simp only [if_neg (Nat.lt_asymm isZeros), if_neg (Nat.ne_of_gt isZeros), times]

/-- Word lengths are read word by word. -/
theorem local_readLengths (code : HuffmanCode) (count : Nat) (done : List Nat) :
    Local (readLengths code count done) := by
  intro reader lengths next run
  -- A run may add many lengths at once, so the induction follows the calls, not the count.
  fun_induction readLengths code count done reader with
  | case1 done reader full =>
      cases run
      refine ⟨[], rfl, fun tail => ?_⟩
      rw [readLengths, if_pos full]
      rfl
  | case2 | case3 => cases run
  | case4 done reader few fits symbol after hsymbol isLength ih =>
      obtain ⟨used, front, again⟩ := code.local_decode _ _ _ hsymbol
      obtain ⟨used', front', again'⟩ := ih run
      refine ⟨used ++ used', by rw [front, front', List.append_assoc], fun tail => ?_⟩
      rw [List.append_assoc, readLengths_of_length (by omega) (again _) isLength, again']
  | case5 | case6 => cases run
  | case7 done reader few fits after last hlast extra rest hbits hsymbol isRun ih =>
      obtain ⟨used, front, again⟩ := code.local_decode _ _ _ hsymbol
      obtain ⟨used', front', again'⟩ := BitReader.local_bits 2 _ _ _ hbits
      obtain ⟨used'', front'', again''⟩ := ih run
      refine ⟨used ++ (used' ++ used''), ?_, fun tail => ?_⟩
      · rw [front, front', front'', List.append_assoc, List.append_assoc]
      · rw [List.append_assoc, List.append_assoc,
          readLengths_of_again (by omega) (again _) hlast (again' _), again'']
  | case8 => cases run
  | case9 done reader few fits symbol after hsymbol isRun isZeros extra rest hbits run' ih =>
      obtain ⟨used, front, again⟩ := code.local_decode _ _ _ hsymbol
      obtain ⟨used', front', again'⟩ := BitReader.local_bits _ _ _ _ hbits
      obtain ⟨used'', front'', again''⟩ := ih run
      refine ⟨used ++ (used' ++ used''), ?_, fun tail => ?_⟩
      · rw [front, front', front'', List.append_assoc, List.append_assoc]
      · rw [List.append_assoc, List.append_assoc,
          readLengths_of_zeros (by omega) (again _) (by omega) (again' _)]
        exact again'' tail

end Lengths

/-- The codes of a block are read from its front, by `readCodes`. -/
theorem local_readCodes : Local readCodes := by
  intro reader codes next run
  unfold readCodes at run
  dsimp only at run
  split at run
  · cases run
  · rename_i counts afterCounts hcounts
    obtain ⟨used, front, again⟩ := BitReader.local_bits 14 _ _ _ hcounts
    split at run
    · cases run
    · rename_i fits
      split at run
      · cases run
      · rename_i given afterGiven hgiven
        obtain ⟨used₁, front₁, again₁⟩ := local_readLengthCode _ _ _ _ hgiven
        split at run
        · cases run
        · rename_i complete
          split at run
          · cases run
          · rename_i all afterAll hall
            obtain ⟨used₂, front₂, again₂⟩ := local_readLengths _ _ _ _ _ _ hall
            split at run
            · rename_i usable
              cases run
              refine ⟨used ++ (used₁ ++ used₂), ?_, fun tail => ?_⟩
              · rw [front, front₁, front₂, List.append_assoc, List.append_assoc]
              · simp only [readCodes, List.append_assoc, again, if_neg fits, again₁,
                  if_neg complete, again₂, if_pos usable]
            · cases run

end PeerWire.Deflate
