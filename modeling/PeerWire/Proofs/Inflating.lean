import PeerWire.Proofs.BitReading

/-! # Where a compressed stream ends

Inflating appends to its output and never takes anything back. Hence a run that succeeds under one
limit succeeds under every limit that its output keeps, and gives the same bytes; and since reading
is local, a stream ends at a definite byte, whatever follows it. -/

namespace PeerWire.Deflate

/-- Carrying out some of a stream appends to the output, keeps the limit, and depends neither on
the bytes that are left nor on the limit, so long as the output keeps it. -/
def Steady (step : Nat → BitReader → ByteArray → Except Fault (ByteArray × BitReader)) : Prop :=
  ∀ limit reader out result next, step limit reader out = .ok (result, next) →
    out.size ≤ result.size ∧ (out.size ≤ limit → result.size ≤ limit) ∧
      ∃ used, reader.bytes = used ++ next.bytes ∧
        ∀ limit' tail, result.size ≤ limit' →
          step limit' ⟨reader.pending, used ++ tail⟩ out = .ok (result, ⟨next.pending, tail⟩)

/-- A copy appends as many bytes as it says: `out.size + length`. -/
@[simp] theorem size_copyBack (distance length : Nat) (out : ByteArray) :
    (copyBack distance length out).size = out.size + length := by
  induction length generalizing out with
  | zero => rfl
  | succ length ih =>
      rw [copyBack, ih, ByteArray.size_push]
      omega

/-! ## Tokens -/

section Tokens

variable {codes : BlockCodes} {limit : Nat} {reader next : BitReader} {out : ByteArray}

/-- The end of a block ends the output. -/
theorem inflateTokens_of_endOfBlock (token : codes.readToken reader = .ok (.endOfBlock, next)) :
    inflateTokens codes limit reader out = .ok (out, next) := by
  rw [inflateTokens]
  split <;> simp_all

/-- A literal appends its byte: the tokens after it go on with `out.push byte`. -/
theorem inflateTokens_of_literal {byte : UInt8}
    (token : codes.readToken reader = .ok (.literal byte, next)) (fits : out.size + 1 ≤ limit) :
    inflateTokens codes limit reader out = inflateTokens codes limit next (out.push byte) := by
  rw [inflateTokens]
  split <;> simp_all [Nat.not_lt.2 fits]

/-- A copy appends what it copies: the tokens after it go on with `copyBack distance length out`. -/
theorem inflateTokens_of_copy {length distance : Nat}
    (token : codes.readToken reader = .ok (.copy length distance, next))
    (fits : out.size + length ≤ limit) :
    inflateTokens codes limit reader out =
      inflateTokens codes limit next (copyBack distance length out) := by
  rw [inflateTokens]
  split <;> simp_all [Nat.not_lt.2 fits]

end Tokens

/-- Carrying out tokens is steady. -/
theorem steady_inflateTokens (codes : BlockCodes) : Steady (inflateTokens codes) := by
  intro limit reader out result next run
  fun_induction inflateTokens codes limit reader out with
  | case1 | case3 | case5 => cases run
  | case2 reader out after htoken =>
      cases run
      obtain ⟨used, front, again⟩ := codes.local_readToken _ _ _ htoken
      exact ⟨Nat.le_refl _, id, used, front, fun limit' tail _ =>
        inflateTokens_of_endOfBlock (again tail)⟩
  | case4 reader out byte after htoken fits ih =>
      -- The output only grows, so a limit that the result keeps is kept here as well.
      obtain ⟨grows, keeps, used', front', again'⟩ := ih run
      obtain ⟨used, front, again⟩ := codes.local_readToken _ _ _ htoken
      rw [ByteArray.size_push] at grows keeps
      refine ⟨by omega, fun _ => keeps (by omega), used ++ used', ?_, fun limit' tail small => ?_⟩
      · rw [front, front', List.append_assoc]
      · rw [List.append_assoc, inflateTokens_of_literal (again _) (by omega)]
        exact again' limit' tail small
  | case6 reader out length distance after htoken fits ih =>
      obtain ⟨grows, keeps, used', front', again'⟩ := ih run
      obtain ⟨used, front, again⟩ := codes.local_readToken _ _ _ htoken
      rw [size_copyBack] at grows keeps
      refine ⟨by omega, fun _ => keeps (by omega), used ++ used', ?_, fun limit' tail small => ?_⟩
      · rw [front, front', List.append_assoc]
      · rw [List.append_assoc, inflateTokens_of_copy (again _) (by omega)]
        exact again' limit' tail small

/-! ## Stored blocks -/

/-- The output with some bytes after it. -/
def appendBytes (out : ByteArray) (content : Bytes) : ByteArray := content.foldl ByteArray.push out

/-- Appending bytes adds their number to the size. -/
@[simp] theorem size_appendBytes (out : ByteArray) (content : Bytes) :
    (appendBytes out content).size = out.size + content.length := by
  induction content generalizing out with
  | nil => rfl
  | cons byte content ih =>
      rw [appendBytes, List.foldl_cons]
      have := ih (out.push byte)
      rw [appendBytes, ByteArray.size_push] at this
      rw [this, List.length_cons]
      omega

/-- Appending in two parts, `front ++ back`, is appending both. -/
theorem appendBytes_append (out : ByteArray) (front back : Bytes) :
    appendBytes out (front ++ back) = appendBytes (appendBytes out front) back := by
  rw [appendBytes, List.foldl_append]
  rfl

/-- The bytes of an output are those before and those appended: `out.data.toList ++ content`. -/
@[simp] theorem toList_appendBytes (out : ByteArray) (content : Bytes) :
    (appendBytes out content).data.toList = out.data.toList ++ content := by
  induction content generalizing out with
  | nil => exact (List.append_nil _).symm
  | cons byte content ih =>
      rw [show appendBytes out (byte :: content) = appendBytes (out.push byte) content from rfl, ih,
        ByteArray.data_push, Array.toList_push, List.append_assoc]
      rfl

/-- An output is its bytes appended to nothing. -/
theorem appendBytes_empty (out : ByteArray) : appendBytes .empty out.data.toList = out := by
  apply ByteArray.ext
  apply Array.toList_inj.1
  rw [toList_appendBytes]
  rfl

/-- Copying stored bytes appends as many as it is told to, `content.length = length`, and goes on
after them. -/
theorem copyStored_eq_ok_iff {limit length : Nat} {bytes : Bytes} {out result : ByteArray}
    {next : BitReader} :
    copyStored limit length bytes out = .ok (result, next) ↔
      ∃ content rest, bytes = content ++ rest ∧ content.length = length ∧
        result = appendBytes out content ∧ next = .ofBytes rest ∧
          (length = 0 ∨ result.size ≤ limit) := by
  fun_induction copyStored limit length bytes out with
  | case1 bytes out =>
      constructor
      · intro run
        cases run
        exact ⟨[], bytes, rfl, rfl, rfl, rfl, .inl rfl⟩
      · rintro ⟨content, rest, rfl, none, rfl, rfl, -⟩
        rw [List.length_eq_zero_iff.1 none]
        rfl
  | case2 length out =>
      constructor
      · intro run
        cases run
      · rintro ⟨content, rest, nothing, some, -⟩
        rw [(List.append_eq_nil_iff.1 nothing.symm).1] at some
        cases some
  | case3 length byte bytes out full =>
      constructor
      · intro run
        cases run
      · rintro ⟨content, rest, -, some, rfl, -, zero | small⟩
        · cases zero
        · rw [size_appendBytes] at small
          omega
  | case4 length byte bytes out fits ih =>
      rw [ih]
      constructor
      · rintro ⟨content, rest, rfl, rfl, rfl, rfl, small⟩
        refine ⟨byte :: content, rest, rfl, rfl, rfl, rfl, .inr ?_⟩
        rw [size_appendBytes, ByteArray.size_push] at *
        omega
      · rintro ⟨content, rest, front, some, rfl, rfl, small⟩
        obtain ⟨first, content, rfl⟩ := List.exists_cons_of_length_eq_add_one some
        obtain ⟨rfl, rfl⟩ := List.cons.inj front
        exact ⟨content, rest, rfl, Nat.succ.inj some, rfl, rfl,
          .inr (small.resolve_left (by omega))⟩

/-- A stored block is steady: `Steady inflateStored`. -/
theorem steady_inflateStored : Steady inflateStored := by
  intro limit reader out result next run
  unfold inflateStored at run
  split at run
  · cases run
  · rename_i length afterLength hlength
    obtain ⟨used, front, again⟩ := BitReader.local_bits 16 _ _ _ hlength
    split at run
    · cases run
    · rename_i complement afterComplement hcomplement
      obtain ⟨used', front', again'⟩ := BitReader.local_bits 16 _ _ _ hcomplement
      split at run
      · rename_i matching
        obtain ⟨content, rest, stored, number, rfl, rfl, small⟩ := copyStored_eq_ok_iff.1 run
        rw [size_appendBytes] at small
        refine ⟨by simp, fun _ => ?_, used ++ (used' ++ content), ?_, fun limit' tail small' => ?_⟩
        · rw [size_appendBytes]
          omega
        -- The pending bits are dropped, whatever they are: only whole bytes count from here on.
        · simp only [BitReader.align] at front
          rw [front, front', stored, List.append_assoc, List.append_assoc]
          rfl
        · simp only [BitReader.align] at again
          simp only [inflateStored, BitReader.align, List.append_assoc, again, again',
            if_pos matching]
          exact copyStored_eq_ok_iff.2 ⟨content, tail, rfl, number, rfl, rfl, .inr small'⟩
      · cases run

/-! ## Blocks and streams -/

/-- A block is steady. -/
theorem steady_inflateBlock (kind : BlockKind) : Steady fun limit => inflateBlock limit kind := by
  cases kind with
  | stored => exact steady_inflateStored
  | fixed => exact steady_inflateTokens .fixed
  | dynamic =>
      intro limit reader out result next run
      simp only [inflateBlock] at run
      split at run
      · cases run
      · rename_i codes afterCodes hcodes
        obtain ⟨used, front, again⟩ := local_readCodes _ _ _ hcodes
        obtain ⟨grows, keeps, used', front', again'⟩ := steady_inflateTokens codes _ _ _ _ _ run
        refine ⟨grows, keeps, used ++ used', ?_, fun limit' tail small => ?_⟩
        · rw [front, front', List.append_assoc]
        · simp only [inflateBlock, List.append_assoc, again]
          exact again' limit' tail small

/-- A block that can be carried out is followed by the next one, unless it is marked as the last. -/
theorem inflateBlocks_of_block {limit header : Nat} {kind : BlockKind}
    {reader start next : BitReader}
    {out result : ByteArray} (hheader : reader.bits 3 = .ok (header, start))
    (hkind : BlockKind.ofNat? (header / 2) = some kind)
    (hblock : inflateBlock limit kind start out = .ok (result, next)) :
    inflateBlocks limit reader out =
      if header % 2 = 1 then .ok (result, next) else inflateBlocks limit next result := by
  rw [inflateBlocks]
  -- Every step of the run is known, so each split has one case that can happen.
  split
  · simp_all
  · rename_i header' start' hheader'
    obtain ⟨rfl, rfl⟩ := Prod.mk.inj (Except.ok.inj (hheader.symm.trans hheader'))
    split
    · simp_all
    · rename_i kind' hkind'
      obtain rfl := Option.some.inj (hkind.symm.trans hkind')
      split
      · simp_all
      · rename_i result' next' hblock'
        obtain ⟨rfl, rfl⟩ := Prod.mk.inj (Except.ok.inj (hblock.symm.trans hblock'))
        rfl

/-- **A compressed stream is steady**, `Steady inflateBlocks`: it ends at a definite byte, and what
it gives depends neither on what follows nor on the limit that its output keeps. -/
theorem steady_inflateBlocks : Steady inflateBlocks := by
  intro limit reader out result next run
  fun_induction inflateBlocks limit reader out with
  | case1 | case2 | case3 => cases run
  | case4 reader out header start hheader kind hkind after next hblock last =>
      cases run
      obtain ⟨used, front, again⟩ := BitReader.local_bits 3 _ _ _ hheader
      obtain ⟨grows, keeps, used', front', again'⟩ := steady_inflateBlock kind _ _ _ _ _ hblock
      refine ⟨grows, keeps, used ++ used', ?_, fun limit' tail small => ?_⟩
      · rw [front, front', List.append_assoc]
      · rw [List.append_assoc, inflateBlocks_of_block (again _) hkind (again' limit' tail small),
          if_pos last]
  | case5 reader out header start hheader kind hkind middle after hblock notLast ih =>
      obtain ⟨used, front, again⟩ := BitReader.local_bits 3 _ _ _ hheader
      obtain ⟨grows, keeps, used₁, front₁, again₁⟩ := steady_inflateBlock kind _ _ _ _ _ hblock
      obtain ⟨grows', keeps', used₂, front₂, again₂⟩ := ih run
      -- A limit that the final output keeps is kept by the output of this block.
      refine ⟨by omega, fun small => keeps' (keeps small), used ++ (used₁ ++ used₂), ?_,
        fun limit' tail small => ?_⟩
      · rw [front, front₁, front₂, List.append_assoc, List.append_assoc]
      · rw [List.append_assoc, List.append_assoc,
          inflateBlocks_of_block (again _) hkind (again₁ limit' _ (by omega)), if_neg notLast]
        exact again₂ limit' tail small

/-- A stream read from its first byte ends at a definite byte: `bytes = used ++ reader.bytes`. -/
theorem inflateBlocks_ofBytes {limit : Nat} {bytes : Bytes} {out : ByteArray} {reader : BitReader}
    (run : inflateBlocks limit (.ofBytes bytes) .empty = .ok (out, reader)) :
    out.size ≤ limit ∧ ∃ used, bytes = used ++ reader.bytes ∧
      ∀ limit' tail, out.size ≤ limit' →
        inflateBlocks limit' (.ofBytes (used ++ tail)) .empty =
          .ok (out, ⟨reader.pending, tail⟩) := by
  obtain ⟨-, keeps, used, front, again⟩ := steady_inflateBlocks _ _ _ _ _ run
  exact ⟨keeps (Nat.zero_le limit), used, front, again⟩

end PeerWire.Deflate
