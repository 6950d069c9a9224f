import PeerWire.Proofs.Unframing

/-! # Wire forms of frames

Frames and their wire forms correspond one to one. A frame whose length can be said has one wire
form, in front of anything the frame is read back from it (`Frame.read_eq_ok_iff_encode`), and
nothing else is read as a frame. A wire form that is cut short is reported with the bytes that it
lacks (`Frame.read_take_toBytes`), and a limit below its length refuses it by the length alone. -/

namespace PeerWire

namespace Frame

variable {frame : Frame} {bytes wire : Bytes} {limit : Nat}

/-- A wire form has bytes. -/
theorem toBytes_ne_nil (frame : Frame) : frame.toBytes ≠ [] := by
  rw [← List.length_pos_iff, length_toBytes, wireLength, lengthWidth]
  omega

/-! ## The length in front -/

/-- A wire form starts with the length that its frame declares, whatever follows it. -/
theorem declaredBy?_toBytes_append (small : frame.declaredLength ≤ maxSize) (tail : Bytes) :
    declaredBy? (frame.toBytes ++ tail) = some frame.declaredLength := by
  have spelled : Spells 2 (Wire.length frame.declaredLength) frame.declaredLength :=
    spells_length ⟨small, Nat.le_refl frame.declaredLength⟩
  have front : frame.toBytes ++ tail = Wire.length frame.declaredLength ++
      (bigEndian 2 frame.tag.toNat ++ frame.body ++ tail) := by
    rw [toBytes, List.append_assoc, List.append_assoc, List.append_assoc]
  rw [front]
  exact declaredBy?_eq_some_iff.2 ⟨_, _, spelled, rfl⟩

/-- Fewer bytes than `lengthWidth` declare nothing. -/
theorem declaredBy?_of_length_lt (short : bytes.length < lengthWidth) :
    declaredBy? bytes = none := by
  cases declared : declaredBy? bytes with
  | none => rfl
  | some length =>
      have two : 2 ≤ bytes.length := two_le_length_of_declaredBy? declared
      exact absurd short (Nat.not_lt_of_le two)

/-- The length of a wire form that is cut: `(frame.toBytes.take count).length = count`. -/
theorem length_take_toBytes {count : Nat} (cut : count < frame.wireLength) :
    (frame.toBytes.take count).length = count := by
  rw [List.length_take, length_toBytes]
  exact Nat.min_eq_left (Nat.le_of_lt cut)

/-- A wire form that is cut tells its whole size, `frame.wireLength`, as soon as its length is
there, and before that the size of the length. -/
theorem expectedSize_take_toBytes (small : frame.declaredLength ≤ maxSize) {count : Nat}
    (cut : count < frame.wireLength) :
    expectedSize (frame.toBytes.take count) =
      if count < lengthWidth then lengthWidth else frame.wireLength := by
  have size := length_take_toBytes cut
  by_cases short : count < lengthWidth
  · have nothing : declaredBy? (frame.toBytes.take count) = none :=
      declaredBy?_of_length_lt (by rw [size]; exact short)
    rw [if_pos short, expectedSize, nothing]
  · -- The length is within the part that is there, so the part declares what the whole does.
    have long : 2 ≤ (frame.toBytes.take count).length := by
      rw [size]
      exact Nat.le_of_not_lt short
    have whole : frame.toBytes = frame.toBytes.take count ++ frame.toBytes.drop count :=
      (List.take_append_drop count _).symm
    have declared := declaredBy?_toBytes_append small []
    rw [List.append_nil, whole, declaredBy?_append long] at declared
    rw [if_neg short, expectedSize, declared]
    rfl

/-! ## Reading wire forms -/

/-- A frame has a wire form, `frame.toBytes`, exactly when its length can be said. -/
theorem encode_eq_ok_iff :
    frame.encode = .ok wire ↔ frame.declaredLength ≤ maxSize ∧ wire = frame.toBytes := by
  constructor
  · intro encoded
    by_cases small : frame.declaredLength ≤ maxSize
    · rw [encode_of_fits ⟨small, Nat.le_refl _⟩] at encoded
      exact ⟨small, (Except.ok.inj encoded).symm⟩
    · rw [encode, appendTo, if_pos (Nat.lt_of_not_le small)] at encoded
      cases encoded
  · rintro ⟨small, rfl⟩
    exact encode_of_fits ⟨small, Nat.le_refl _⟩

/-- **Reading inverts writing**: `read bytes limit = .ok (frame, size)` exactly where `bytes.take
size` is the wire form of the frame and its length keeps the limit. -/
theorem read_eq_ok_iff_encode {size : Nat} :
    read bytes limit = .ok (frame, size) ↔
      size ≤ bytes.length ∧ frame.encode = .ok (bytes.take size) ∧
        frame.declaredLength ≤ limit := by
  rw [read_eq_ok_iff, takeFrom_eq_some_iff, encode_eq_ok_iff]
  constructor
  · rintro ⟨⟨whole, small, keeps⟩, rfl⟩
    have front : bytes.take frame.wireLength = frame.toBytes := by
      rw [whole]
      exact List.take_left' frame.length_toBytes
    have inside : frame.wireLength ≤ bytes.length := by
      rw [whole, List.length_append, length_toBytes]
      exact Nat.le_add_right _ _
    exact ⟨inside, ⟨small, front⟩, keeps⟩
  · rintro ⟨inside, ⟨small, front⟩, keeps⟩
    have whole : size = frame.wireLength := by
      rw [← length_toBytes, ← front, List.length_take, Nat.min_eq_left inside]
    refine ⟨⟨?_, small, keeps⟩, whole⟩
    rw [← front, List.take_append_drop]

/-- A limit below the length of a frame refuses `frame.toBytes ++ tail` by the length, whatever the
tail is. -/
theorem read_toBytes_append_of_lt (small : frame.declaredLength ≤ maxSize)
    (exceeds : limit < frame.declaredLength) (tail : Bytes) :
    read (frame.toBytes ++ tail) limit = .error (.oversize frame.declaredLength limit) := by
  have refused : checkDeclared frame.declaredLength limit =
      .error (.oversize frame.declaredLength limit) := if_pos exceeds
  have taken : takeFrom (frame.toBytes ++ tail) limit =
      .error (.oversize frame.declaredLength limit) :=
    takeFrom_eq_error_iff.2 ⟨_, declaredBy?_toBytes_append small tail, refused⟩
  exact (takeFrom_eq_error_iff_read.1 taken).1

/-- A wire form that is cut to `count` bytes is reported with the size that it tells and with
`count`. -/
theorem read_take_toBytes (fits : frame.Fits limit) {count : Nat} (cut : count < frame.wireLength) :
    read (frame.toBytes.take count) limit = .error
      (.truncated (if count < lengthWidth then lengthWidth else frame.wireLength) count) := by
  have size := length_take_toBytes cut
  have missing : frame.toBytes.drop count ≠ [] := by
    rw [ne_eq, List.drop_eq_nil_iff, length_toBytes]
    exact Nat.not_le_of_lt cut
  have waits : takeFrom (frame.toBytes.take count) limit = .ok none :=
    takeFrom_of_incomplete (List.take_append_drop count _) fits missing
  rw [read_eq, waits, expectedSize_take_toBytes fits.1 cut, size]

/-- **Frames and wire forms correspond.** A frame has a wire form exactly when `frame.body.length ≤
65533`. From `wire ++ tail` the frame is read back under every limit with `2 + frame.body.length ≤
limit`, and refused by `oversize` under every other; `wire.take count` without an end is reported as
`truncated`, with the whole size once the two bytes of the length are there. Conversely, whatever is
read as a frame from any bytes is the wire form of the frame, in front of them. -/
theorem encode_read_correspond :
    (∀ frame : Frame,
      ((∃ wire, frame.encode = .ok wire) ↔ frame.body.length ≤ 65533) ∧
      ∀ wire, frame.encode = .ok wire →
        (∀ tail limit, 2 + frame.body.length ≤ limit →
          read (wire ++ tail) limit = .ok (frame, wire.length)) ∧
        (∀ tail limit, limit < 2 + frame.body.length →
          read (wire ++ tail) limit = .error (.oversize (2 + frame.body.length) limit)) ∧
        ∀ count < wire.length, ∀ limit, 2 + frame.body.length ≤ limit →
          read (wire.take count) limit =
            .error (.truncated (if count < 2 then 2 else wire.length) count)) ∧
    ∀ bytes limit frame size, read bytes limit = .ok (frame, size) →
      size ≤ bytes.length ∧ frame.encode = .ok (bytes.take size) := by
  refine ⟨fun frame => ⟨?_, ?_⟩, ?_⟩
  · have room : frame.declaredLength ≤ maxSize ↔ frame.body.length ≤ 65533 := by
      rw [declaredLength, tagWidth, maxSize]
      omega
    rw [← room]
    constructor
    · rintro ⟨wire, encoded⟩
      exact (encode_eq_ok_iff.1 encoded).1
    · intro small
      exact ⟨_, encode_eq_ok_iff.2 ⟨small, rfl⟩⟩
  · intro wire encoded
    obtain ⟨small, rfl⟩ := encode_eq_ok_iff.1 encoded
    refine ⟨?_, ?_, ?_⟩
    · intro tail limit keeps
      have front : (frame.toBytes ++ tail).take frame.toBytes.length = frame.toBytes :=
        List.take_left
      refine read_eq_ok_iff_encode.2 ⟨?_, ?_, keeps⟩
      · rw [List.length_append]
        exact Nat.le_add_right _ _
      · rw [front]
        exact encoded
    · intro tail limit exceeds
      exact read_toBytes_append_of_lt small exceeds tail
    · intro count cut limit keeps
      rw [length_toBytes] at cut ⊢
      exact read_take_toBytes ⟨small, keeps⟩ cut
  · intro bytes limit frame size run
    obtain ⟨inside, encoded, -⟩ := read_eq_ok_iff_encode.1 run
    exact ⟨inside, encoded⟩

/-- A ping without its last byte, and without all but the first byte of its length. -/
example :
    read [0, 4, 0, 18, 7] 65535 = .error (.truncated 6 5) ∧
      read [0] 65535 = .error (.truncated 2 1) := by
  decide

end Frame

end PeerWire
