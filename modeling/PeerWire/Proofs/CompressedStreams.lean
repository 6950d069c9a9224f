import Mathlib.Data.List.Induction
import PeerWire.Proofs.Decoding
import PeerWire.Proofs.DeflateBlocks
import PeerWire.Zlib

/-! # Compressed streams

A byte string *holds* some content when it is a complete compressed stream: a header, a deflate
stream that ends with its last byte, and the checksum of what it gives. `decompress limit bytes`
succeeds exactly where `bytes = stream ++ junk` with `Holds stream content` and
`content.length ≤ limit` (`decompress_eq_ok_iff`). -/

namespace PeerWire

open Deflate

namespace Zlib

/-- The two bytes in front of a stream: they name deflate with a window of at most 32768 bytes, ask
for no dictionary, and are a multiple of 31. -/
def IsHeader (first second : UInt8) : Prop :=
  first.toNat % 16 = 8 ∧ first.toNat / 16 ≤ 7 ∧ second.toNat.testBit 5 = false ∧
    31 ∣ first.toNat * 256 + second.toNat

/-- The sum of some bytes and 1, `1 + ∑ byte`. -/
def lowSum (content : Bytes) : Nat := 1 + (content.map UInt8.toNat).sum

/-- The sum of the low sums of all fronts but the empty one, `∑ lowSum (content.take (count +
1))`. -/
def highSum (content : Bytes) : Nat :=
  ((List.range content.length).map fun count => lowSum (content.take (count + 1))).sum

/-- The checksum of some bytes: both sums modulo 65521, the high one in front. -/
def adler (content : Bytes) : Nat := highSum content % 65521 * 65536 + lowSum content % 65521

/-- A complete stream that gives the content: a header, `deflated` with `Gives deflated content`,
and the checksum in four bytes. -/
def Holds (stream content : Bytes) : Prop :=
  ∃ first second deflated sum, stream = first :: second :: (deflated ++ sum) ∧
    IsHeader first second ∧ Gives deflated content ∧ Spells 4 sum (adler content)

/-- Headers are checked as the format says, by `IsHeader`. -/
theorem isHeader_iff {first second : UInt8} :
    isHeader first second = true ↔ IsHeader first second := by
  simp only [isHeader, IsHeader, Bool.and_eq_true, decide_eq_true_eq,
    Nat.testBit_eq_decide_div_mod_eq, decide_eq_false_iff_not]
  omega

/-- The low sum of one more byte. -/
theorem lowSum_concat (content : Bytes) (byte : UInt8) :
    lowSum (content ++ [byte]) = lowSum content + byte.toNat := by
  simp [lowSum, Nat.add_assoc]

/-- The high sum of one more byte. -/
theorem highSum_concat (content : Bytes) (byte : UInt8) :
    highSum (content ++ [byte]) = highSum content + lowSum (content ++ [byte]) := by
  have fronts : ((List.range content.length).map fun count =>
      lowSum ((content ++ [byte]).take (count + 1))) =
        (List.range content.length).map fun count => lowSum (content.take (count + 1)) := by
    refine List.map_congr_left fun count member => ?_
    rw [List.take_append_of_le_length (List.mem_range.1 member)]
  rw [highSum, List.length_append, List.length_singleton, List.range_succ, List.map_append, fronts,
    List.sum_append, ← highSum, List.map_singleton, List.sum_singleton,
    List.take_of_length_le (by simp)]

/-- The running sums are those of the bytes so far, modulo 65521: `lowSum` and `highSum`. -/
theorem foldl_push (content : Bytes) :
    content.foldl Checksum.push {} = ⟨lowSum content % 65521, highSum content % 65521⟩ := by
  induction content using List.reverseRecOn with
  | nil => rfl
  | append_singleton content byte ih =>
      rw [List.foldl_append, ih, List.foldl_cons, List.foldl_nil, Checksum.push, highSum_concat,
        lowSum_concat]
      simp only [Checksum.modulus, Nat.mod_add_mod, Nat.add_mod_mod]

/-- **The checksum of the decoder is that of the format**: folding `Checksum.push` gives `adler
content`. -/
theorem value_foldl_push (content : Bytes) :
    (content.foldl Checksum.push {}).value = adler content := by
  rw [foldl_push]
  rfl

/-! ## Reading streams -/

/-- A fold over the bytes of an array takes the steps of the fold over the array below it. -/
theorem foldlM_loop_eq {β : Type} (step : β → UInt8 → Id β) (out : ByteArray) (stop : Nat)
    (h : stop ≤ out.size) (left place : Nat) (start : β) :
    ByteArray.foldlM.loop step out stop h left place start =
      Array.foldlM.loop step out.data stop h left place start := by
  induction left generalizing place start with
  | zero =>
      unfold ByteArray.foldlM.loop Array.foldlM.loop
      rfl
  | succ left ih =>
      unfold ByteArray.foldlM.loop Array.foldlM.loop
      simp only [ih]
      rfl

/-- The checksum of an output is that of its bytes. -/
theorem foldl_eq_foldl_toList {β : Type} (step : β → UInt8 → β) (start : β) (out : ByteArray) :
    out.foldl step start = out.data.toList.foldl step start := by
  rw [Array.foldl_toList]
  unfold ByteArray.foldl ByteArray.foldlM Array.foldl Array.foldlM
  simp only [foldlM_loop_eq]
  rfl

/-- Listing the bytes of an output from a place on: those listed before, and `out.data.toList.drop
place`. -/
theorem toList_loop_eq (out : ByteArray) (place : Nat) (done : List UInt8) :
    ByteArray.toList.loop out place done = done.reverse ++ out.data.toList.drop place := by
  fun_induction ByteArray.toList.loop out place done with
  | case1 place done inside ih =>
      have bound : place < out.data.toList.length := by simpa using inside
      have byte : out.get! place = out.data.toList[place] := by
        simp [ByteArray.get!, inside]
      rw [ih, List.drop_eq_getElem_cons bound, byte, List.reverse_cons, List.append_assoc]
      rfl
  | case2 place done outside =>
      rw [List.drop_eq_nil_of_le (by simpa using outside), List.append_nil]

/-- The bytes of an output as a list. -/
theorem toList_eq_data_toList (out : ByteArray) : out.toList = out.data.toList := by
  rw [ByteArray.toList, toList_loop_eq]
  rfl

/-- **What is decompressed is a complete stream in front**, whose content keeps the limit: `bytes =
stream ++ junk` with `Holds stream out.data.toList`. What follows the stream does not matter. -/
theorem decompress_eq_ok_iff {limit : Nat} {bytes : Bytes} {out : ByteArray} :
    decompress limit bytes = .ok out ↔
      out.size ≤ limit ∧
        ∃ stream junk, bytes = stream ++ junk ∧ Holds stream out.data.toList := by
  constructor
  · intro run
    unfold decompress at run
    split at run
    · rename_i first second rest
      split at run
      · rename_i header
        split at run
        · cases run
        · rename_i result reader inflated
          split at run
          · rename_i a b c d junk trailer
            split at run
            · rename_i sum
              cases run
              -- The blocks use up some bytes; the four after them are the checksum.
              obtain ⟨small, used, front, again⟩ := inflateBlocks_ofBytes inflated
              refine ⟨small, first :: second :: (used ++ [a, b, c, d]), junk, ?_, first, second,
                used, [a, b, c, d], rfl, isHeader_iff.1 header,
                gives_iff.2 ⟨limit, ⟨reader.pending, []⟩, ?_, rfl⟩, rfl, ?_⟩
              · rw [front, trailer]
                simp
              · rw [appendBytes_empty]
                simpa using again limit [] small
              · rw [sum, foldl_eq_foldl_toList, value_foldl_push]
            · cases run
          · cases run
      · cases run
    · cases run
  · rintro ⟨small, stream, junk, rfl, first, second, deflated, sum, rfl, header, gives, four,
      spelled⟩
    obtain ⟨limit', reader, inflated, ended⟩ := gives_iff.1 gives
    rw [appendBytes_empty] at inflated
    -- The stream was inflated under a limit of its own, and runs the same under the given one.
    obtain ⟨-, used, front, again⟩ := inflateBlocks_ofBytes inflated
    obtain rfl : deflated = used := by simpa [ended] using front
    obtain ⟨a, b, c, d, rfl⟩ : ∃ a b c d, sum = [a, b, c, d] := by
      match sum, four with
      | [a, b, c, d], _ => exact ⟨a, b, c, d, rfl⟩
    have whole : (first :: second :: (deflated ++ [a, b, c, d])) ++ junk =
        first :: second :: (deflated ++ ([a, b, c, d] ++ junk)) := by simp
    rw [whole]
    unfold decompress
    simp only [isHeader_iff.2 header, if_true, again limit _ small, List.cons_append,
      foldl_eq_foldl_toList, value_foldl_push, spelled]

end Zlib

end PeerWire
