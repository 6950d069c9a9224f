import PeerWire.Frame.Outlet
import PeerWire.Proofs.Decoding

/-! # Frames in a buffer

What `Frame.takeFrom` finds in a buffer depends on its front alone. A frame that fits its length
field and the limit is taken once all its bytes are there (`Frame.takeFrom_eq_some_iff`), and
nothing is taken, nor refused, while some of them are missing (`Frame.takeFrom_of_incomplete`). An
outlet writes the frames that fit and refuses all others. -/

namespace PeerWire

namespace Frame

/-- The length of a frame can be said in two bytes and keeps a limit: `declaredLength ≤ maxSize` and
`declaredLength ≤ limit`. -/
def Fits (frame : Frame) (limit : Nat) : Prop :=
  frame.declaredLength ≤ maxSize ∧ frame.declaredLength ≤ limit

/-- Two bytes can say the length of a frame whose body leaves room for the tag: `body.length ≤
65533`. -/
theorem declaredLength_le_maxSize_iff {frame : Frame} :
    frame.declaredLength ≤ maxSize ↔ frame.body.length ≤ 65533 := by
  show 2 + frame.body.length ≤ 65535 ↔ _
  omega

/-- A frame that keeps `limit` keeps every `limit' ≥ limit`. -/
theorem Fits.mono {frame : Frame} {limit limit' : Nat} (fits : frame.Fits limit)
    (higher : limit ≤ limit') : frame.Fits limit' :=
  ⟨fits.1, Nat.le_trans fits.2 higher⟩

/-- The first two bytes declare the number that they spell. -/
theorem declaredBy?_eq_some_iff {buffer : Bytes} {declared : Nat} :
    declaredBy? buffer = some declared ↔
      ∃ size rest, Spells 2 size declared ∧ buffer = size ++ rest := by
  constructor
  · intro found
    unfold declaredBy? at found
    split at found
    · rename_i high low rest
      exact ⟨[high, low], rest, ⟨rfl, Option.some.inj found⟩, rfl⟩
    · cases found
  · rintro ⟨size, rest, ⟨two, spelled⟩, rfl⟩
    obtain ⟨high, low, rfl⟩ := List.length_eq_two.1 two
    exact congrArg some spelled

/-- The declared lengths that are not refused: `tagWidth ≤ declared ≤ limit`. -/
theorem checkDeclared_eq_ok_iff {declared limit : Nat} :
    checkDeclared declared limit = .ok () ↔ declared ≤ limit ∧ tagWidth ≤ declared := by
  unfold checkDeclared
  split
  · simp only [reduceCtorEq, false_iff]
    omega
  · split
    · simp only [reduceCtorEq, false_iff]
      omega
    · simp only [true_iff]
      omega

/-- The content of a frame is read from its tag and its body: `bigEndian 2 frame.tag.toNat ++
frame.body`. -/
theorem accepts_contentDecoder (declared : Nat) :
    (contentDecoder declared).Accepts fun word frame =>
      word = bigEndian 2 frame.tag.toNat ++ frame.body ∧
        frame.body.length = declared - tagWidth := by
  refine (Decoder.accepts_u16.bind fun tag => (Decoder.accepts_take (declared - tagWidth)).bind
    fun body => Decoder.accepts_pure (Frame.mk tag body.1)).congr fun word frame => ?_
  constructor
  · rintro ⟨size, _, tag, rfl, spelled, _, _, body, rfl, rfl, rfl, rfl⟩
    rw [List.append_nil, (spells_iff.1 spelled).1]
    exact ⟨rfl, body.2⟩
  · rintro ⟨rfl, wide⟩
    exact ⟨_, frame.body, frame.tag, rfl, spells_bigEndian frame.tag.toNat_lt, frame.body, [],
      ⟨frame.body, wide⟩, (List.append_nil _).symm, rfl, rfl, rfl⟩

/-- The wire form of a frame is its length, its tag and its body. -/
theorem spells_length {frame : Frame} {limit : Nat} (fits : frame.Fits limit) :
    Spells 2 (Wire.length frame.declaredLength) frame.declaredLength :=
  spells_bigEndian (Nat.lt_succ_of_le fits.1)

/-- **A frame is taken exactly when it stands in front and fits**: `buffer = frame.toBytes ++
rest`. -/
theorem takeFrom_eq_some_iff {buffer rest : Bytes} {limit : Nat} {frame : Frame} :
    takeFrom buffer limit = .ok (some (frame, rest)) ↔
      buffer = frame.toBytes ++ rest ∧ frame.Fits limit := by
  constructor
  · intro taken
    refine ⟨eq_of_takeFrom taken, ?_⟩
    unfold takeFrom at taken
    split at taken
    · cases taken
    · rename_i declared found
      split at taken
      · cases taken
      · rename_i checked
        obtain ⟨keeps, room⟩ := checkDeclared_eq_ok_iff.1 checked
        obtain ⟨size, later, spelled, -⟩ := declaredBy?_eq_some_iff.1 found
        split at taken
        · rename_i content left run
          cases taken
          obtain ⟨word, -, -, wide⟩ := (accepts_contentDecoder declared _ _ _).1 run
          have same : frame.declaredLength = declared := by
            rw [declaredLength, wide]
            omega
          have small : declared < 65536 := (spells_iff.1 spelled).2
          rw [Fits, same]
          exact ⟨Nat.le_of_lt_succ small, keeps⟩
        · cases taken
  · rintro ⟨rfl, fits⟩
    have found : declaredBy? (frame.toBytes ++ rest) = some frame.declaredLength := by
      rw [toBytes, List.append_assoc, List.append_assoc]
      exact declaredBy?_eq_some_iff.2 ⟨_, _, spells_length fits, rfl⟩
    have checked : checkDeclared frame.declaredLength limit = .ok () :=
      checkDeclared_eq_ok_iff.2 ⟨fits.2, Nat.le_add_right _ _⟩
    have content : (frame.toBytes ++ rest).drop lengthWidth =
        (bigEndian 2 frame.tag.toNat ++ frame.body) ++ rest := by
      rw [toBytes, List.append_assoc, List.append_assoc, List.append_assoc]
      exact List.drop_left' (length_bigEndian 2 _)
    have wide : frame.body.length = frame.declaredLength - tagWidth :=
      (Nat.add_sub_cancel_left tagWidth _).symm
    have run := (accepts_contentDecoder frame.declaredLength).append ⟨rfl, wide⟩ rest
    unfold takeFrom
    simp only [found, checked, content, run]

/-- Nothing is taken while bytes of a frame that fits are missing. -/
theorem takeFrom_of_incomplete {buffer missing : Bytes} {limit : Nat} {frame : Frame}
    (whole : buffer ++ missing = frame.toBytes) (fits : frame.Fits limit)
    (incomplete : missing ≠ []) : takeFrom buffer limit = .ok none := by
  unfold takeFrom
  split
  · rfl
  · rename_i declared found
    obtain ⟨size, part, spelled, rfl⟩ := declaredBy?_eq_some_iff.1 found
    rw [toBytes, List.append_assoc, List.append_assoc] at whole
    -- The length is all there, so that only content can be missing.
    obtain ⟨rfl, content⟩ := List.append_inj whole (by rw [spelled.1, (spells_length fits).1])
    obtain rfl : frame.declaredLength = declared := by
      rw [← spelled.2, (spells_length fits).2]
    have dropped : (Wire.length frame.declaredLength ++ part).drop lengthWidth = part :=
      List.drop_left' spelled.1
    rw [checkDeclared_eq_ok_iff.2 ⟨fits.2, Nat.le_add_right _ _⟩, dropped]
    cases run : contentDecoder frame.declaredLength part with
    | error cause left => rfl
    | ok other left =>
        obtain ⟨_, rfl, rfl, wide⟩ := (accepts_contentDecoder frame.declaredLength _ _ _).1 run
        have total := congrArg List.length content
        have missed := List.length_pos_iff.2 incomplete
        have room : frame.declaredLength = 2 + frame.body.length := rfl
        have tag : tagWidth = 2 := rfl
        simp only [List.length_append, length_bigEndian] at total
        omega

/-- A buffer and what follows it, `buffer ++ coming`, start with a frame that fits: the buffer holds
the frame, or a part of it and nothing can be said yet. -/
theorem takeFrom_of_append {buffer coming later : Bytes} {limit : Nat} {frame : Frame}
    (whole : buffer ++ coming = frame.toBytes ++ later) (fits : frame.Fits limit) :
    (∃ rest, takeFrom buffer limit = .ok (some (frame, rest)) ∧ rest ++ coming = later) ∨
      (takeFrom buffer limit = .ok none ∧ coming ≠ []) := by
  rcases List.append_eq_append_iff.1 whole with ⟨missing, same, rfl⟩ | ⟨rest, rfl, rfl⟩
  · by_cases complete : missing = []
    · subst complete
      rw [List.append_nil] at same
      refine .inl ⟨[], takeFrom_eq_some_iff.2 ⟨?_, fits⟩, rfl⟩
      rw [same, List.append_nil]
    · refine .inr ⟨takeFrom_of_incomplete same.symm fits complete, ?_⟩
      intro none
      exact complete (List.append_eq_nil_iff.1 none).1
  · exact .inl ⟨rest, takeFrom_eq_some_iff.2 ⟨rfl, fits⟩, rfl⟩

/-! ## Writing frames -/

/-- A frame whose length can be said has the wire form `frame.toBytes`. -/
theorem encode_of_fits {frame : Frame} {limit : Nat} (fits : frame.Fits limit) :
    frame.encode = .ok frame.toBytes := by
  rw [encode, appendTo, if_neg (Nat.not_lt_of_le fits.1), List.nil_append]

/-- Why a frame that does not fit is refused: it exceeds the limit, or else the greatest length that
two bytes can say. -/
def oversized (frame : Frame) (limit : Nat) : FrameError :=
  .oversize frame.declaredLength (if frame.declaredLength > limit then limit else maxSize)

/-- A frame that keeps the limit but does not fit has a length that two bytes cannot say. -/
theorem maxSize_lt_of_not_fits {frame : Frame} {limit : Nat} (large : ¬frame.Fits limit)
    (keeps : ¬frame.declaredLength > limit) : frame.declaredLength > maxSize := by
  by_contra narrow
  exact large ⟨Nat.le_of_not_lt narrow, Nat.le_of_not_lt keeps⟩

end Frame

namespace FrameOutlet

variable {outlet : FrameOutlet} {frame : Frame}

/-- A frame that fits is written whole, and flushed. -/
theorem send_of_fits (fits : frame.Fits outlet.limit) :
    outlet.send frame =
      match outlet.sink.writeAll frame.toBytes with
      | (.error fault, sink) =>
          (.error (sinkError fault), { outlet with sink, assembly := frame.toBytes })
      | (.ok (), sink) => flush { outlet with sink, assembly := frame.toBytes } := by
  have coded : frame.appendTo [] = .ok frame.toBytes := Frame.encode_of_fits fits
  rw [send, if_neg (Nat.not_lt_of_le fits.2)]
  dsimp only
  split
  · rename_i error refused
    rw [coded] at refused
    cases refused
  · rename_i assembly encoded
    rw [coded] at encoded
    cases encoded
    rfl

/-- A frame that does not fit is refused, and nothing but the assembly changes. -/
theorem send_of_large (large : ¬frame.Fits outlet.limit) :
    ∃ assembly,
      outlet.send frame = (.error (frame.oversized outlet.limit), { outlet with assembly }) := by
  unfold send Frame.oversized
  split
  · exact ⟨outlet.assembly, rfl⟩
  · rename_i keeps
    simp only [Frame.appendTo, if_pos (Frame.maxSize_lt_of_not_fits large keeps)]
    exact ⟨[], rfl⟩

/-- A frame that does not fit is refused by `oversize`, and the sink is left alone. -/
theorem send_of_not_fits (large : ¬frame.Fits outlet.limit) :
    ∃ size most assembly,
      outlet.send frame = (.error (.oversize size most), { outlet with assembly }) := by
  obtain ⟨assembly, refused⟩ := send_of_large large
  exact ⟨_, _, assembly, refused⟩

/-- Only a refused frame is answered by `oversize`, whatever the sink does. -/
theorem send_ne_oversize (fits : frame.Fits outlet.limit) (size most : Nat) :
    (outlet.send frame).1 ≠ .error (.oversize size most) := by
  have other (fault : TransportFault) : sinkError fault ≠ .oversize size most := by
    unfold sinkError
    split <;> simp
  rw [send_of_fits fits]
  split
  · rename_i fault sink _
    simpa using other fault
  · unfold flush
    split
    · simp
    · rename_i fault sink _
      simpa using other fault

end FrameOutlet

end PeerWire
