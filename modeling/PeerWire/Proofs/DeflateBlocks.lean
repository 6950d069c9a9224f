import PeerWire.Proofs.DeflateCodes
import PeerWire.Proofs.Inflating

/-! # Inflating the format

The inflater gives what the format says a stream gives (`gives_iff`). Its output is the output the
format speaks of so long as it keeps the limit; a stored block also has to start at a byte border,
which is where the reader drops the bits it has not read. -/

namespace PeerWire.Deflate

/-! ## Copies -/

/-- The copied byte: `out[out.size - distance]`, or zero before the first byte. -/
theorem getElem?_byteBefore {distance : Nat} (positive : 0 < distance) (out : ByteArray) :
    some (byteBefore distance out) =
      if out.size < distance then some 0 else out.data.toList[out.size - distance]? := by
  unfold byteBefore
  split
  · rfl
  · have listed : out[out.size - distance]? = out.data.toList[out.size - distance]? := by
      rw [Array.getElem?_toList]
      rfl
    have inside : out.size - distance < out.data.toList.length := by
      have : out.data.toList.length = out.size := rfl
      omega
    rw [listed, List.getElem?_eq_getElem inside]
    rfl

/-- A copy appends bytes as the format says: `copyBack distance length out` is an outcome of
`IsCopy`. -/
theorem isCopy_copyBack {distance : Nat} (positive : 0 < distance) (length : Nat)
    (out : ByteArray) :
    IsCopy distance length out.data.toList (copyBack distance length out).data.toList := by
  induction length generalizing out with
  | zero =>
      refine ⟨List.prefix_rfl, rfl, fun place low high => ?_⟩
      rw [copyBack] at high
      omega
  | succ length ih =>
      obtain ⟨front, long, places⟩ := ih (out.push (byteBefore distance out))
      rw [copyBack]
      generalize (copyBack distance length (out.push (byteBefore distance out))).data.toList =
        result at front long places
      rw [ByteArray.data_push, Array.toList_push] at front long places
      rw [List.length_append, List.length_singleton] at long places
      refine ⟨(List.prefix_append _ _).trans front, by omega, fun place low high => ?_⟩
      rcases Nat.lt_or_eq_of_le low with later | rfl
      · exact places place later high
      · -- The first byte copied is the only one that the shorter copy does not speak of.
        obtain ⟨more, rfl⟩ := front
        have here : out.data.toList.length - distance < out.data.toList.length ∨
            out.data.toList.length < distance := by omega
        rw [List.append_assoc, List.getElem?_append_right (Nat.le_refl _), Nat.sub_self]
        refine (getElem?_byteBefore positive out).trans ?_
        rw [show out.size = out.data.toList.length from rfl]
        split
        · rfl
        · rw [List.getElem?_append_left (by omega)]

/-- A copy has one outcome, if `0 < distance`. -/
theorem IsCopy.unique {distance length : Nat} (positive : 0 < distance) {out result other : Bytes}
    (isCopy : IsCopy distance length out result) (isOther : IsCopy distance length out other) :
    result = other := by
  obtain ⟨⟨more, rfl⟩, long, places⟩ := isCopy
  obtain ⟨⟨more', rfl⟩, long', places'⟩ := isOther
  apply List.ext_getElem?
  intro place
  -- Every byte is one of the output before or repeats an earlier one.
  induction place using Nat.strongRecOn with
  | ind place ih =>
      rcases Nat.lt_or_ge place out.length with low | low
      · rw [List.getElem?_append_left low, List.getElem?_append_left low]
      · rcases Nat.lt_or_ge place (out.length + length) with high | high
        · rw [places place low (by omega), places' place low (by omega)]
          split
          · rfl
          · exact ih _ (by omega)
        · rw [List.getElem?_eq_none (by omega), List.getElem?_eq_none (by omega)]

/-- The distance of a copy is positive. -/
theorem IsToken.distance_pos {literals distances : List Nat} {length distance : Nat}
    {word : List Bool} (isToken : IsToken literals distances (.copy length distance) word) :
    0 < distance := by
  cases isToken with
  | copy _ _ _ offset =>
      obtain ⟨least, width, extra, range, -, rfl⟩ := offset
      unfold distanceRange at range
      split at range
      · cases range
        omega
      split at range
      · cases range
        omega
      · cases range

/-! ## Tokens -/

/-- Tokens only append to an output: `out <+: result`. -/
theorem IsTokens.front {literals distances : List Nat} {out result : Bytes} {word : List Bool}
    (tokens : IsTokens literals distances out word result) : out <+: result := by
  induction tokens with
  | endOfBlock => exact List.prefix_rfl
  | literal _ _ ih => exact (List.prefix_append _ _).trans ih
  | copy _ copied _ ih => exact copied.1.trans ih

/-- An output grows with its bytes. -/
theorem size_le_of_front {out result : ByteArray}
    (front : out.data.toList <+: result.data.toList) : out.size ≤ result.size :=
  front.length_le

section Tokens

variable {literals distances : List Nat}

/-- The tokens that are carried out are tokens of the format, and what they give keeps the limit:
`result.size ≤ limit`. -/
theorem isTokens_of_inflateTokens {codes : BlockCodes}
    (takes : Takes codes.readToken (IsToken literals distances)) {limit : Nat}
    {reader next : BitReader} {out result : ByteArray} (proper : reader.Proper)
    (fits : out.size ≤ limit) (run : inflateTokens codes limit reader out = .ok (result, next)) :
    next.Proper ∧ ∃ word, (result.size ≤ limit ∧
      IsTokens literals distances out.data.toList word result.data.toList) ∧
        reader.toBits = word ++ next.toBits := by
  fun_induction inflateTokens codes limit reader out with
  | case1 | case3 | case5 => cases run
  | case2 reader out after htoken =>
      cases run
      obtain ⟨proper', word, isToken, whole⟩ := (takes _ _ _ proper).1 htoken
      exact ⟨proper', word, ⟨fits, .endOfBlock isToken⟩, whole⟩
  | case4 reader out byte after htoken small ih =>
      obtain ⟨proper', front, isToken, whole⟩ := (takes _ _ _ proper).1 htoken
      have fits' : (out.push byte).size ≤ limit := by
        rw [ByteArray.size_push]
        omega
      obtain ⟨proper'', back, ⟨fits'', tokens⟩, whole'⟩ := ih proper' fits' run
      rw [ByteArray.data_push, Array.toList_push] at tokens
      refine ⟨proper'', front ++ back, ⟨fits'', .literal isToken tokens⟩, ?_⟩
      rw [whole, whole', List.append_assoc]
  | case6 reader out length distance after htoken small ih =>
      obtain ⟨proper', front, isToken, whole⟩ := (takes _ _ _ proper).1 htoken
      have fits' : (copyBack distance length out).size ≤ limit := by
        rw [size_copyBack]
        omega
      obtain ⟨proper'', back, ⟨fits'', tokens⟩, whole'⟩ := ih proper' fits' run
      refine ⟨proper'', front ++ back, ⟨fits'', .copy isToken
        (isCopy_copyBack isToken.distance_pos length out) tokens⟩, ?_⟩
      rw [whole, whole', List.append_assoc]

/-- Tokens of the format are carried out, if what they give keeps the limit. -/
theorem inflateTokens_of_isTokens {codes : BlockCodes}
    (takes : Takes codes.readToken (IsToken literals distances)) {limit : Nat}
    {front back : Bytes} {word : List Bool} (tokens : IsTokens literals distances front word back)
    {reader next : BitReader} {out result : ByteArray} (proper : reader.Proper)
    (proper' : next.Proper) (before : front = out.data.toList) (after : back = result.data.toList)
    (fits : result.size ≤ limit) (whole : reader.toBits = word ++ next.toBits) :
    inflateTokens codes limit reader out = .ok (result, next) := by
  induction tokens generalizing reader out with
  | endOfBlock isToken =>
      obtain rfl : out = result := ByteArray.ext (Array.toList_inj.1 (before.symm.trans after))
      exact inflateTokens_of_endOfBlock ((takes _ _ _ proper).2 ⟨proper', _, isToken, whole⟩)
  | @literal _ _ byte _ _ isToken tokens ih =>
      rw [List.append_assoc] at whole
      obtain ⟨middle, read, proper'', whole'⟩ := takes.run proper isToken whole
      subst before after
      have pushed : out.data.toList ++ [byte] = (out.push byte).data.toList := by
        rw [ByteArray.data_push, Array.toList_push]
      have grows := size_le_of_front (pushed ▸ tokens.front)
      rw [inflateTokens_of_literal read]
      · exact ih proper'' pushed rfl whole'
      · rw [← ByteArray.size_push]
        exact Nat.le_trans grows fits
  | @copy _ middle _ length distance _ _ isToken copied tokens ih =>
      rw [List.append_assoc] at whole
      obtain ⟨middle, read, proper'', whole'⟩ := takes.run proper isToken whole
      subst before after
      have made := copied.unique isToken.distance_pos
        (isCopy_copyBack isToken.distance_pos length out)
      have grows := size_le_of_front (made ▸ tokens.front)
      rw [inflateTokens_of_copy read]
      · exact ih proper'' made rfl whole'
      · rw [← size_copyBack distance]
        exact Nat.le_trans grows fits

/-- **Tokens are carried out as the format says**: `inflateTokens` takes the words of `IsTokens`
whose result keeps the limit. -/
theorem takes_inflateTokens {codes : BlockCodes}
    (takes : Takes codes.readToken (IsToken literals distances)) {limit : Nat} {out : ByteArray}
    (fits : out.size ≤ limit) :
    Takes (inflateTokens codes limit · out) fun result word => result.size ≤ limit ∧
      IsTokens literals distances out.data.toList word result.data.toList := by
  intro reader result next proper
  constructor
  · exact isTokens_of_inflateTokens takes proper fits
  · rintro ⟨proper', word, ⟨fits', tokens⟩, whole⟩
    exact inflateTokens_of_isTokens takes tokens proper proper' rfl rfl fits' whole

end Tokens

/-! ## Stored blocks -/

/-- Bytes have eight bits each: `8 * bytes.length` in all. -/
theorem length_flatMap_byteBits (bytes : Bytes) :
    (bytes.flatMap byteBits).length = 8 * bytes.length :=
  ((BitReader.ofBytes bytes).length_toBits).trans (Nat.zero_add _)

/-- At a byte border no bits of a byte are left unread: `pending = []`. -/
theorem BitReader.Proper.pending_eq_nil {reader : BitReader} (proper : reader.Proper)
    (border : 8 ∣ reader.toBits.length) : reader.pending = [] := by
  rw [BitReader.length_toBits] at border
  unfold Proper at proper
  exact List.length_eq_zero_iff.1 (by omega)

section Stored

variable {start limit : Nat} {reader next : BitReader} {out result : ByteArray}

/-- A stored block that is carried out is one of the format. -/
theorem isStored_of_inflateStored (proper : reader.Proper)
    (border : 8 ∣ start + reader.toBits.length) (fits : out.size ≤ limit)
    (run : inflateStored limit reader out = .ok (result, next)) :
    next.Proper ∧ ∃ content word, IsStored start content word ∧ result.size ≤ limit ∧
      result.data.toList = out.data.toList ++ content ∧ reader.toBits = word ++ next.toBits := by
  unfold inflateStored at run
  split at run
  · cases run
  rename_i length afterLength hlength
  split at run
  · cases run
  rename_i complement afterComplement hcomplement
  split at run
  · rename_i matching
    obtain ⟨content, rest, stored, rfl, rfl, rfl, small⟩ := copyStored_eq_ok_iff.1 run
    have aligned : reader.align.Proper := by simp [BitReader.align, BitReader.Proper]
    obtain ⟨proper₁, first, number, whole₁⟩ := (takes_bits 16 _ _ _ aligned).1 hlength
    obtain ⟨proper₂, second, number', whole₂⟩ := (takes_bits 16 _ _ _ proper₁).1 hcomplement
    -- Two numbers of two bytes lead from one byte border to another.
    have border₂ : afterComplement.pending = [] := by
      apply proper₂.pending_eq_nil
      have long := congrArg List.length whole₁
      rw [whole₂, List.length_append, List.length_append, number.1, number'.1,
        BitReader.length_toBits] at long
      simp only [BitReader.align, List.length_nil] at long
      omega
    have bits : afterComplement.toBits = content.flatMap byteBits ++ rest.flatMap byteBits := by
      rw [BitReader.toBits, border₂, stored, List.flatMap_append, List.nil_append]
    rw [show complement = 65535 - content.length by omega] at number'
    refine ⟨BitReader.proper_ofBytes rest, content, _, .mk proper ?_ number number', ?_,
      toList_appendBytes out content, ?_⟩
    · rw [BitReader.length_toBits] at border
      omega
    · rw [size_appendBytes] at small ⊢
      omega
    · have split : reader.toBits = reader.pending ++ reader.align.toBits := rfl
      rw [split, whole₁, whole₂, bits]
      simp [BitReader.toBits, BitReader.ofBytes]
  · cases run

/-- A stored block of the format is carried out. -/
theorem inflateStored_of_isStored (proper : reader.Proper) (proper' : next.Proper)
    (border : 8 ∣ start + reader.toBits.length) {content : Bytes} {word : List Bool}
    (isStored : IsStored start content word) (fits : result.size ≤ limit)
    (appended : result.data.toList = out.data.toList ++ content)
    (whole : reader.toBits = word ++ next.toBits) :
    inflateStored limit reader out = .ok (result, next) := by
  obtain @⟨padding, first, second, content, short, border', number, number'⟩ := isStored
  rw [List.append_assoc, List.append_assoc, List.append_assoc] at whole
  -- The reader has as many unread bits as are filled up to the border.
  have padded : reader.pending.length = padding.length := by
    rw [BitReader.length_toBits] at border
    unfold BitReader.Proper at proper
    omega
  have bits : reader.align.toBits = _ := (List.append_inj whole padded).2
  have aligned : reader.align.Proper := by simp [BitReader.align, BitReader.Proper]
  obtain ⟨afterLength, hlength, proper₁, whole₁⟩ := (takes_bits 16).run aligned number bits
  obtain ⟨afterComplement, hcomplement, proper₂, whole₂⟩ :=
    (takes_bits 16).run proper₁ number' whole₁
  have long := congrArg List.length bits
  have long₁ := congrArg List.length whole₁
  have long₂ := congrArg List.length whole₂
  simp only [List.length_append, number.1, number'.1, length_flatMap_byteBits,
    BitReader.length_toBits, BitReader.align, List.length_nil] at long long₁ long₂
  have border₂ : afterComplement.pending = [] := proper₂.pending_eq_nil (by
    rw [BitReader.length_toBits]
    omega)
  have border₃ : next.pending = [] := proper'.pending_eq_nil (by
    rw [BitReader.length_toBits]
    omega)
  have bytes : afterComplement.bytes = content ++ next.bytes := by
    apply flatMap_byteBits_injective
    rw [List.flatMap_append]
    simpa [BitReader.toBits, border₂, border₃] using whole₂
  have small := number.lt
  rw [inflateStored, hlength]
  dsimp only
  rw [hcomplement]
  dsimp only
  rw [if_pos (by omega)]
  refine copyStored_eq_ok_iff.2 ⟨content, next.bytes, bytes, rfl, ?_, ?_, .inr fits⟩
  · apply ByteArray.ext
    apply Array.toList_inj.1
    rw [appended, toList_appendBytes]
  · cases next
    exact congrArg (BitReader.mk · _) border₃

end Stored

/-! ## Blocks and streams -/

/-- The fixed codes have the word lengths `fixedLiterals` and `fixedDistances` of the format. -/
theorem fixed_eq : BlockCodes.fixed = BlockCodes.ofLengths fixedLiterals fixedDistances := by
  rw [show fixedLiterals = fixedLiteralLengths by decide +kernel]
  rfl

/-- The two bits that name a kind of block. -/
def BlockKind.bits : BlockKind → List Bool
  | .stored => [false, false]
  | .fixed => [true, false]
  | .dynamic => [false, true]

/-- A header is the bit of the last block, `header % 2 = 1`, and the bits of its kind. -/
theorem header_eq {header : Nat} {word : List Bool} {kind : BlockKind}
    (number : IsNumber 3 header word) (isKind : BlockKind.ofNat? (header / 2) = some kind) :
    word = decide (header % 2 = 1) :: kind.bits := by
  obtain ⟨long, rfl⟩ := number
  match word, long with
  | [last, low, high], _ =>
      revert isKind
      cases last <;> cases low <;> cases high <;> cases kind <;> decide

/-- A block that starts with `kind.bits` is one of that kind. -/
theorem isBlock_iff {start : Nat} {out : Bytes} {kind : BlockKind} {word : List Bool}
    {result : Bytes} :
    IsBlock start out (kind.bits ++ word) result ↔
      match kind with
      | .stored => ∃ content, IsStored (start + 2) content word ∧ result = out ++ content
      | .fixed => IsTokens fixedLiterals fixedDistances out word result
      | .dynamic => ∃ literals distances front back, word = front ++ back ∧
          IsCodes literals distances front ∧ IsTokens literals distances out back result := by
  constructor
  · intro isBlock
    generalize whole : kind.bits ++ word = bits at isBlock
    cases isBlock with
    | stored isStored =>
        cases kind <;> simp [BlockKind.bits] at whole
        exact ⟨_, whole ▸ isStored, rfl⟩
    | fixed tokens =>
        cases kind <;> simp [BlockKind.bits] at whole
        exact whole ▸ tokens
    | dynamic isCodes tokens =>
        cases kind <;> simp [BlockKind.bits] at whole
        exact ⟨_, _, _, _, whole, isCodes, tokens⟩
  · cases kind with
    | stored =>
        rintro ⟨content, isStored, rfl⟩
        exact .stored isStored
    | fixed => exact .fixed
    | dynamic =>
        rintro ⟨literals, distances, front, back, rfl, isCodes, tokens⟩
        exact .dynamic isCodes tokens

section Blocks

variable {start limit : Nat} {reader next : BitReader} {out result : ByteArray}

/-- **A block is carried out as the format says**: `inflateBlock` succeeds just where `IsBlock`
holds of the bits of its kind and the bits used up, and the result keeps the limit. -/
theorem inflateBlock_eq_ok_iff {kind : BlockKind} (proper : reader.Proper)
    (border : 8 ∣ start + 2 + reader.toBits.length) (fits : out.size ≤ limit) :
    inflateBlock limit kind reader out = .ok (result, next) ↔
      next.Proper ∧ ∃ word, (result.size ≤ limit ∧
        IsBlock start out.data.toList (kind.bits ++ word) result.data.toList) ∧
          reader.toBits = word ++ next.toBits := by
  simp only [isBlock_iff]
  cases kind with
  | stored =>
      constructor
      · intro run
        obtain ⟨proper', content, word, isStored, fits', appended, whole⟩ :=
          isStored_of_inflateStored proper border fits run
        exact ⟨proper', word, ⟨fits', content, isStored, appended⟩, whole⟩
      · rintro ⟨proper', word, ⟨fits', content, isStored, appended⟩, whole⟩
        exact inflateStored_of_isStored proper proper' border isStored fits' appended whole
  | fixed =>
      have fits₁ : share fixedLiterals ≤ 2 ^ maxWordLength := by decide +kernel
      have fits₂ : share fixedDistances ≤ 2 ^ maxWordLength := by decide +kernel
      have takes := takes_readToken fits₁ fits₂
      rw [← fixed_eq] at takes
      exact takes_inflateTokens takes fits reader result next proper
  | dynamic =>
      -- Two reads, but the second one is known from the word lengths, not from the codes that the
      -- first one gives.
      constructor
      · intro run
        unfold inflateBlock at run
        dsimp only at run
        split at run
        · cases run
        rename_i codes middle hcodes
        obtain ⟨proper', front, ⟨literals, distances, rfl, isCodes⟩, whole⟩ :=
          (takes_readCodes _ _ _ proper).1 hcodes
        have takes := takes_readToken isCodes.usable.1.share_le isCodes.usable.2.share_le
        obtain ⟨proper'', back, ⟨fits', tokens⟩, whole'⟩ :=
          (takes_inflateTokens takes fits _ _ _ proper').1 run
        refine ⟨proper'', front ++ back,
          ⟨fits', literals, distances, front, back, rfl, isCodes, tokens⟩, ?_⟩
        rw [whole, whole', List.append_assoc]
      · rintro ⟨proper'', _,
          ⟨fits', literals, distances, front, back, rfl, isCodes, tokens⟩, whole⟩
        rw [List.append_assoc] at whole
        obtain ⟨middle, hcodes, proper', whole'⟩ :=
          takes_readCodes.run proper ⟨literals, distances, rfl, isCodes⟩ whole
        have takes := takes_readToken isCodes.usable.1.share_le isCodes.usable.2.share_le
        rw [inflateBlock, hcodes]
        exact (takes_inflateTokens takes fits _ _ _ proper').2
          ⟨proper'', back, ⟨fits', tokens⟩, whole'⟩

/-- Blocks only append to an output. -/
theorem IsBlock.front {start : Nat} {out result : Bytes} {word : List Bool}
    (isBlock : IsBlock start out word result) : out <+: result := by
  cases isBlock with
  | stored => exact List.prefix_append _ _
  | fixed tokens | dynamic _ tokens => exact tokens.front

/-- A block starts with the bits of its kind. -/
theorem IsBlock.exists_kind {start : Nat} {out result : Bytes} {word : List Bool}
    (isBlock : IsBlock start out word result) :
    ∃ kind : BlockKind, ∃ body, word = kind.bits ++ body := by
  cases isBlock with
  | stored => exact ⟨.stored, _, rfl⟩
  | fixed => exact ⟨.fixed, _, rfl⟩
  | dynamic => exact ⟨.dynamic, _, rfl⟩

/-- Streams only append to an output. -/
theorem IsStream.front {start : Nat} {out result : Bytes} {word : List Bool}
    (isStream : IsStream start out word result) : out <+: result := by
  induction isStream with
  | last isBlock => exact isBlock.front
  | more isBlock _ ih => exact isBlock.front.trans ih

/-- A block that is carried out behind its header is one of the format. -/
theorem isBlock_of_inflateBlock (proper : reader.Proper)
    (border : 8 ∣ start + reader.toBits.length) (fits : out.size ≤ limit) {header : Nat}
    {after : BitReader} {kind : BlockKind} (hheader : reader.bits 3 = .ok (header, after))
    (hkind : BlockKind.ofNat? (header / 2) = some kind)
    (hblock : inflateBlock limit kind after out = .ok (result, next)) :
    next.Proper ∧ result.size ≤ limit ∧ ∃ word,
      IsBlock (start + 1) out.data.toList word result.data.toList ∧
        reader.toBits = decide (header % 2 = 1) :: (word ++ next.toBits) := by
  obtain ⟨proper₁, front, number, whole⟩ := (takes_bits 3 _ _ _ proper).1 hheader
  have border₁ : 8 ∣ start + 1 + 2 + after.toBits.length := by
    rw [whole, List.length_append, number.1] at border
    omega
  obtain ⟨proper₂, back, ⟨fits', isBlock⟩, whole₁⟩ :=
    (inflateBlock_eq_ok_iff proper₁ border₁ fits).1 hblock
  refine ⟨proper₂, fits', kind.bits ++ back, isBlock, ?_⟩
  rw [whole, header_eq number hkind, whole₁, List.cons_append, List.append_assoc]

/-- A block of the format is carried out behind its header. -/
theorem inflateBlock_of_isBlock (proper : reader.Proper)
    (border : 8 ∣ start + reader.toBits.length) (fits : out.size ≤ limit) (proper' : next.Proper)
    (fits' : result.size ≤ limit) {last : Bool} {word : List Bool}
    (isBlock : IsBlock (start + 1) out.data.toList word result.data.toList)
    (whole : reader.toBits = last :: (word ++ next.toBits)) :
    inflateBlocks limit reader out =
      if last then .ok (result, next) else inflateBlocks limit next result := by
  obtain ⟨kind, body, rfl⟩ := isBlock.exists_kind
  rw [List.append_assoc, ← List.cons_append] at whole
  have number : IsNumber 3 (ofBits (last :: kind.bits)) (last :: kind.bits) :=
    ⟨by cases kind <;> rfl, rfl⟩
  have isKind : BlockKind.ofNat? (ofBits (last :: kind.bits) / 2) = some kind := by
    cases last <;> cases kind <;> rfl
  have isLast : ofBits (last :: kind.bits) % 2 = 1 ↔ last = true := by
    cases last <;> cases kind <;> decide
  obtain ⟨after, hheader, proper₁, whole₁⟩ := (takes_bits 3).run proper number whole
  have border₁ : 8 ∣ start + 1 + 2 + after.toBits.length := by
    rw [whole, List.length_append, number.1, ← whole₁] at border
    omega
  have hblock := (inflateBlock_eq_ok_iff proper₁ border₁ fits).2
    ⟨proper', body, ⟨fits', isBlock⟩, whole₁⟩
  rw [inflateBlocks_of_block hheader isKind hblock]
  simp only [isLast]

/-- A stream that is carried out is one of the format: the bits used up are a word of `IsStream`
from the output before to that after. -/
theorem isStream_of_inflateBlocks (proper : reader.Proper)
    (border : 8 ∣ start + reader.toBits.length) (fits : out.size ≤ limit)
    (run : inflateBlocks limit reader out = .ok (result, next)) :
    next.Proper ∧ result.size ≤ limit ∧ ∃ word,
      IsStream start out.data.toList word result.data.toList ∧
        reader.toBits = word ++ next.toBits := by
  fun_induction inflateBlocks limit reader out generalizing start with
  | case1 | case2 | case3 => cases run
  | case4 reader out header after hheader kind hkind made left hblock last =>
      cases run
      obtain ⟨proper', fits', word, isBlock, whole⟩ :=
        isBlock_of_inflateBlock proper border fits hheader hkind hblock
      rw [decide_eq_true last] at whole
      exact ⟨proper', fits', _, .last isBlock, whole⟩
  | case5 reader out header after hheader kind hkind middle next hblock notLast ih =>
      obtain ⟨proper', fits', word, isBlock, whole⟩ :=
        isBlock_of_inflateBlock proper border fits hheader hkind hblock
      rw [decide_eq_false notLast] at whole
      have border' : 8 ∣ start + 1 + word.length + next.toBits.length := by
        rw [whole, List.length_cons, List.length_append] at border
        omega
      obtain ⟨proper'', fits'', rest, isStream, whole'⟩ := ih proper' border' fits' run
      refine ⟨proper'', fits'', false :: (word ++ rest), .more isBlock isStream, ?_⟩
      rw [whole, whole', List.cons_append, List.append_assoc]

/-- A stream of the format is carried out. -/
theorem inflateBlocks_of_isStream {front back : Bytes} {word : List Bool}
    (isStream : IsStream start front word back) (proper : reader.Proper) (proper' : next.Proper)
    (border : 8 ∣ start + reader.toBits.length) (before : front = out.data.toList)
    (behind : back = result.data.toList) (fits : result.size ≤ limit)
    (whole : reader.toBits = word ++ next.toBits) :
    inflateBlocks limit reader out = .ok (result, next) := by
  induction isStream generalizing reader out with
  | last isBlock =>
      subst before behind
      have fits' := Nat.le_trans (size_le_of_front isBlock.front) fits
      exact inflateBlock_of_isBlock proper border fits' proper' fits isBlock whole
  | @more start _ middle _ word rest isBlock isStream ih =>
      subst before behind
      -- What the block makes of the output is held by some output.
      obtain ⟨middle, rfl⟩ : ∃ array : ByteArray, middle = array.data.toList :=
        ⟨⟨middle.toArray⟩, rfl⟩
      have fits₁ := Nat.le_trans (size_le_of_front isStream.front) fits
      have fits₂ := Nat.le_trans (size_le_of_front isBlock.front) fits₁
      have split : reader.toBits = false :: word ++ (rest ++ next.toBits) := by
        rw [whole, List.cons_append, List.cons_append, List.append_assoc]
      obtain ⟨between, proper₁, whole₁⟩ := proper.exists_middle split
      rw [← whole₁] at split
      have border' : 8 ∣ start + 1 + word.length + between.toBits.length := by
        rw [split, List.length_append, List.length_cons] at border
        omega
      rw [inflateBlock_of_isBlock proper border fits₂ proper₁ fits₁ isBlock split]
      exact ih proper₁ border' rfl rfl whole₁

end Blocks

/-- No byte is left just where fewer than eight bits are: `reader.bytes = []`. -/
theorem BitReader.Proper.bytes_eq_nil_iff {reader : BitReader} (proper : reader.Proper) :
    reader.bytes = [] ↔ reader.toBits.length < 8 := by
  rw [BitReader.length_toBits, ← List.length_eq_zero_iff]
  unfold BitReader.Proper at proper
  omega

/-- **The inflater gives what the format says**: `Gives deflated content` holds just where
`inflateBlocks` succeeds under some limit, gives the content and leaves no byte. -/
theorem gives_iff {deflated content : Bytes} :
    Gives deflated content ↔
      ∃ limit reader,
        inflateBlocks limit (.ofBytes deflated) .empty =
          .ok (appendBytes .empty content, reader) ∧ reader.bytes = [] := by
  have bits : (BitReader.ofBytes deflated).toBits = deflated.flatMap byteBits := rfl
  have proper := BitReader.proper_ofBytes deflated
  have listed : (appendBytes .empty content).data.toList = content := toList_appendBytes .empty _
  have border : 8 ∣ 0 + (BitReader.ofBytes deflated).toBits.length := by
    rw [bits, length_flatMap_byteBits]
    omega
  constructor
  · rintro ⟨word, padding, whole, short, isStream⟩
    obtain ⟨next, proper', rest⟩ := proper.exists_middle (bits.trans whole)
    rw [← rest] at whole short
    refine ⟨content.length, next, ?_, proper'.bytes_eq_nil_iff.2 short⟩
    refine inflateBlocks_of_isStream isStream proper proper' border rfl listed.symm ?_ whole
    rw [size_appendBytes]
    exact Nat.le_of_eq (Nat.zero_add _)
  · rintro ⟨limit, reader, run, ended⟩
    obtain ⟨proper', -, word, isStream, whole⟩ :=
      isStream_of_inflateBlocks proper border (Nat.zero_le limit) run
    rw [listed] at isStream
    exact ⟨word, reader.toBits, whole, proper'.bytes_eq_nil_iff.1 ended, isStream⟩

end PeerWire.Deflate
