import PeerWire.Proofs.FeatureSets
import PeerWire.Proofs.FieldEncoding

/-! # The bytes of a feature vector

The byte form of a feature vector is positional: bit zero is the lowest bit of the last byte, and
leading zeros say nothing. Written back, a vector has the bytes that it was made from without their
leading zeros, so that byte strings make the same vector if they differ in these alone. The wire
form is thus the shortest one among all those that are read as the vector, and the only one of its
length (`FeatureVector.encode_shortest`). -/

namespace PeerWire

namespace FeatureVector

variable {vector : FeatureVector} {source rest : Bytes}

/-- A bit of a byte string is found counting from its last byte, in `bytes[bytes.length - 1 - bit /
8]`. -/
theorem contains_ofBytes_iff (bytes : Bytes) (bit : Nat) :
    (ofBytes bytes).contains bit = true ↔
      bit < 8 * bytes.length ∧
        ∃ byte, bytes[bytes.length - 1 - bit / 8]? = some byte ∧
          byte.toNat.testBit (bit % 8) = true := by
  rw [ofBytes, contains_ofOctets]
  constructor
  · intro one
    have inside := lt_length_of_bitAt one
    rw [bitAt, List.getD_eq_getElem _ _ inside] at one
    have found := List.getElem?_eq_getElem inside
    rw [List.length_reverse] at inside
    rw [List.getElem?_reverse inside] at found
    exact ⟨by omega, _, found, one⟩
  · rintro ⟨within, byte, found, one⟩
    have inside : bit / 8 < bytes.length := by omega
    rw [← List.getElem?_reverse inside] at found
    rw [bitAt, List.getD_eq_getElem?_getD, found]
    exact one

/-- Byte strings make the same vector if they differ in leading zeros alone: `bytes.dropWhile (· ==
0)`. -/
theorem ofBytes_eq_iff (bytes others : Bytes) :
    ofBytes bytes = ofBytes others ↔ bytes.dropWhile (· == 0) = others.dropWhile (· == 0) := by
  rw [← toBytes_ofBytes, ← toBytes_ofBytes]
  constructor
  · intro same
    rw [same]
  · exact toBytes_injective

/-- A vector whose length can be said is read back from `vector.encode ++ tail`, and `tail` is
left. -/
theorem decoder_encode_append (short : vector.byteLength ≤ 65535) (tail : Bytes) :
    decoder (vector.encode ++ tail) = .ok vector tail := by
  have range : FieldType.features.InRange vector := short
  have denoted : FieldType.features.Denotes vector.encode vector :=
    FieldType.denotes_encode range trivial
  exact (FieldType.accepts .features).append denoted tail

/-- What is read as a vector takes `vector.encode.length` bytes or more, and is its wire form if it
takes as many. -/
theorem length_encode_le_of_decoder (read : decoder source = .ok vector rest) :
    vector.encode.length + rest.length ≤ source.length ∧
      (source.length = vector.encode.length + rest.length → source = vector.encode ++ rest) := by
  obtain ⟨word, rfl, content, headed, trimmed⟩ := (FeatureVector.accepts _ _ _).1 read
  obtain ⟨rfl, -⟩ := headed_iff.1 headed
  have suffix : vector.toBytes <:+ content := by
    rw [trimmed]
    exact List.dropWhile_suffix _
  have size (length : Nat) : (Wire.length length).length = 2 := length_bigEndian 2 _
  simp only [encode, List.length_append, size]
  refine ⟨by have := suffix.length_le; omega, fun same => ?_⟩
  -- No zeros were left out, so that the content is that of the wire form.
  have whole : vector.toBytes = content := suffix.eq_of_length (by omega)
  rw [← length_toBytes, whole]

/-- **A feature vector is written by the shortest of the byte strings that are read as it.** The
bits of a byte string are counted from its last byte, and leading zeros are all that is lost when
its vector is written, as `bytes.dropWhile (· == 0)`. A vector whose length can be said is read back
from `vector.encode ++ tail`, whatever the tail is; everything else that is read as the vector is
longer. -/
theorem encode_shortest :
    (∀ bytes bit, (ofBytes bytes).contains bit = true ↔
      bit < 8 * bytes.length ∧
        ∃ byte, bytes[bytes.length - 1 - bit / 8]? = some byte ∧
          byte.toNat.testBit (bit % 8) = true) ∧
    (∀ bytes, (ofBytes bytes).toBytes = bytes.dropWhile (· == 0)) ∧
    (∀ bytes others,
      ofBytes bytes = ofBytes others ↔ bytes.dropWhile (· == 0) = others.dropWhile (· == 0)) ∧
    ∀ vector : FeatureVector,
      (vector.byteLength ≤ 65535 → ∀ tail, decoder (vector.encode ++ tail) = .ok vector tail) ∧
      ∀ source rest, decoder source = .ok vector rest →
        vector.encode.length + rest.length ≤ source.length ∧
          (source.length = vector.encode.length + rest.length → source = vector.encode ++ rest) :=
  ⟨contains_ofBytes_iff, toBytes_ofBytes, ofBytes_eq_iff, fun _ =>
    ⟨decoder_encode_append, fun _ _ => length_encode_le_of_decoder⟩⟩

/-- Bit 3 is read from three bytes as from one, which is the shorter form. -/
theorem encode_shortest_padded :
    (ofBits [3]).byteLength ≤ 65535 ∧
      decoder ((ofBits [3]).encode ++ [7]) = .ok (ofBits [3]) [7] ∧
      decoder [0, 3, 0, 0, 8, 7] = .ok (ofBits [3]) [7] ∧
      (ofBits [3]).encode.length + [7].length ≤ [0, 3, 0, 0, 8, 7].length ∧
      decoder [0, 1, 8, 7] = .ok (ofBits [3]) [7] ∧
      [0, 1, 8, 7].length = (ofBits [3]).encode.length + [7].length ∧
      [0, 1, 8, 7] = (ofBits [3]).encode ++ [7] := by
  have short : (ofBits [3]).byteLength ≤ 65535 := by decide
  have padded : decoder [0, 3, 0, 0, 8, 7] = .ok (ofBits [3]) [7] := by rfl
  have shortest : decoder [0, 1, 8, 7] = .ok (ofBits [3]) [7] := by rfl
  have same : [0, 1, 8, 7].length = (ofBits [3]).encode.length + [7].length := by decide
  obtain ⟨-, -, -, forms⟩ := encode_shortest
  obtain ⟨back, others⟩ := forms (ofBits [3])
  exact ⟨short, back short [7], padded, (others _ _ padded).1, shortest, same,
    (others _ _ shortest).2 same⟩

end FeatureVector

end PeerWire
