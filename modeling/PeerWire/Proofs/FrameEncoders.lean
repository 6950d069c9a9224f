import PeerWire.Frame.Incremental
import PeerWire.Proofs.Filling
import PeerWire.Proofs.Transfer

/-! # The encoders of frames agree

A frame can be put into a buffer, by itself or with a codec, be encoded alone, or be sent over a
transport. Only the codec and the outlet have a limit of their own, which each of them checks before
the length itself is checked. They all accept the same frames up to their limits and write the same
bytes behind what is there; a frame that is refused leaves the buffer or the sink as it was
(`Frame.encoders_agree`). -/

namespace PeerWire

open Raw

namespace Frame

variable {frame : Frame} {limit : Nat} {before : Bytes}

/-! ## What encoding a frame comes to -/

/-- What encoding a frame behind some bytes comes to under a limit: an answer, and the bytes that
are there afterwards. -/
structure Encoded (frame : Frame) (limit : Nat) (before : Bytes)
    (result : Except FrameError Unit × Bytes) : Prop where
  /-- Accepted are the frames whose tag and body keep the limit and can be counted in two bytes. -/
  accepted_iff : result.1 = .ok () ↔ 2 + frame.body.length ≤ min limit 65535
  /-- An accepted frame stands behind what was there: its length, its tag and its body. -/
  written : result.1 = .ok () → result.2 =
    before ++
      (bigEndian 2 (2 + frame.body.length) ++ bigEndian 2 frame.tag.toNat ++ frame.body)
  /-- Any other is refused with its size and the bound that it exceeds, the limit first, and nothing
  is written. -/
  refused : result.1 ≠ .ok () → result =
    (.error (.oversize (2 + frame.body.length)
      (if 2 + frame.body.length > limit then limit else 65535)), before)

/-- The frames that fit are those that are to be accepted: `2 + frame.body.length ≤ min limit
65535`. -/
theorem fits_iff : frame.Fits limit ↔ 2 + frame.body.length ≤ min limit 65535 := by
  rw [Nat.le_min]
  exact And.comm

/-- A frame that fits is encoded by accepting it and writing its wire form, `frame.toBytes`. -/
theorem Fits.encoded (fits : frame.Fits limit) :
    frame.Encoded limit before (.ok (), before ++ frame.toBytes) where
  accepted_iff := iff_of_true rfl (fits_iff.1 fits)
  written := fun _ => rfl
  refused := fun other => absurd rfl other

/-- A frame that does not fit is encoded by refusing it and writing nothing, as `frame.oversized
limit` says. -/
theorem encoded_of_large (large : ¬frame.Fits limit) :
    frame.Encoded limit before (.error (frame.oversized limit), before) where
  accepted_iff := iff_of_false (by simp) (mt fits_iff.2 large)
  written := by simp
  refused := fun _ => rfl

/-! ## In a buffer -/

/-- The answer of an encoder and what it leaves in a buffer, which on an error stays as it is. -/
def filling (buffer : Bytes) : Except FrameError Bytes → Except FrameError Unit × Bytes
  | .ok filled => (.ok (), filled)
  | .error error => (.error error, buffer)

/-- Puts a frame into a buffer, unless two bytes cannot say its length. -/
def put (frame : Frame) : Raw FrameError Unit := do
  if frame.declaredLength > maxSize then
    throw (.oversize frame.declaredLength maxSize)
  else
    putLength frame.declaredLength
    putUint 2 frame.tag.toNat
    putSlice frame.body

/-- A frame is put where it is appended, by `frame.appendTo buffer`. -/
theorem perform_put (frame : Frame) (buffer : Bytes) :
    frame.put.perform buffer = some (filling buffer (frame.appendTo buffer)) := by
  rw [put, appendTo]
  split
  · rfl
  · rw [toBytes, List.append_assoc]
    exact (appends_putLength _).bind ((appends_putUint _ _).bind (appends_putSlice _)) buffer

end Frame

/-- Puts a frame into a buffer, unless it exceeds the limit or two bytes cannot say its length. -/
def FrameCodec.put (codec : FrameCodec) (frame : Frame) : Raw FrameError Unit := do
  if frame.declaredLength > codec.limit then
    throw (.oversize frame.declaredLength codec.limit)
  else frame.put

/-- A codec puts a frame where it appends it, by `codec.encode frame buffer`. -/
theorem FrameCodec.perform_put (codec : FrameCodec) (frame : Frame) (buffer : Bytes) :
    (codec.put frame).perform buffer = some (Frame.filling buffer (codec.encode frame buffer)) := by
  rw [put, encode]
  split
  · rfl
  · exact frame.perform_put buffer

/-- The ways to put a frame into a buffer. -/
inductive BufferEncoder where
  /-- By itself. -/
  | plain
  /-- With a codec that has a limit. -/
  | codec (limit : Nat)
  deriving DecidableEq, Repr

namespace BufferEncoder

variable {encoder : BufferEncoder} {frame : Frame} {buffer : Bytes}

/-- The largest declared length. -/
def limit : BufferEncoder → Nat
  | .plain => Frame.maxSize
  | .codec limit => limit

/-- The buffer with the frame. -/
def append : BufferEncoder → Frame → Bytes → Except FrameError Bytes
  | .plain, frame, buffer => frame.appendTo buffer
  | .codec limit, frame, buffer => FrameCodec.encode ⟨limit⟩ frame buffer

/-- The answer, and what is left in the buffer. -/
def run (encoder : BufferEncoder) (frame : Frame) (buffer : Bytes) :
    Except FrameError Unit × Bytes :=
  Frame.filling buffer (encoder.append frame buffer)

/-- The same with operations that put bytes into the buffer. -/
def raw : BufferEncoder → Frame → Raw FrameError Unit
  | .plain, frame => frame.put
  | .codec limit, frame => FrameCodec.put ⟨limit⟩ frame

/-- The operations leave in the buffer what is said to be left. -/
theorem perform_raw (encoder : BufferEncoder) (frame : Frame) (buffer : Bytes) :
    (encoder.raw frame).perform buffer = some (encoder.run frame buffer) := by
  cases encoder with
  | plain => exact frame.perform_put buffer
  | codec limit => exact FrameCodec.perform_put ⟨limit⟩ frame buffer

/-- A frame that fits is appended: `buffer ++ frame.toBytes`. -/
theorem append_of_fits (fits : frame.Fits encoder.limit) :
    encoder.append frame buffer = .ok (buffer ++ frame.toBytes) := by
  have said : frame.appendTo buffer = .ok (buffer ++ frame.toBytes) :=
    if_neg (Nat.not_lt_of_le fits.1)
  cases encoder with
  | plain => exact said
  | codec limit => exact (if_neg (Nat.not_lt_of_le fits.2)).trans said

/-- A frame that does not fit is refused: `.error (frame.oversized encoder.limit)`. -/
theorem append_of_large (large : ¬frame.Fits encoder.limit) :
    encoder.append frame buffer = .error (frame.oversized encoder.limit) := by
  cases encoder with
  | plain =>
      -- Without a limit of its own it is the length itself that is too great.
      have wide : frame.declaredLength > Frame.maxSize := by
        by_contra narrow
        exact large ⟨Nat.le_of_not_lt narrow, Nat.le_of_not_lt narrow⟩
      rw [append, limit, Frame.appendTo, Frame.oversized, if_pos wide, if_pos wide]
  | codec limit =>
      show (if frame.declaredLength > limit then _ else frame.appendTo buffer) =
        .error (.oversize frame.declaredLength (if frame.declaredLength > limit then _ else _))
      -- A frame that passes the check of the limit is left to that of the length.
      split
      · rfl
      · rename_i keeps
        rw [Frame.appendTo, if_pos (Frame.maxSize_lt_of_not_fits large keeps)]

/-- **Every way encodes a frame** behind what is in the buffer: `encoder.run frame buffer`. -/
theorem encoded_run (encoder : BufferEncoder) (frame : Frame) (buffer : Bytes) :
    frame.Encoded encoder.limit buffer (encoder.run frame buffer) := by
  by_cases fits : frame.Fits encoder.limit
  · rw [run, append_of_fits fits]
    exact fits.encoded
  · rw [run, append_of_large fits]
    exact Frame.encoded_of_large fits

end BufferEncoder

/-! ## Over a transport -/

namespace FrameOutlet

variable {outlet : FrameOutlet} {frame : Frame}

/-- **Sending encodes a frame** behind `outlet.sink.written`, if the sink takes everything. -/
theorem encoded_send (willing : outlet.sink.Willing) (frame : Frame) :
    frame.Encoded outlet.limit outlet.sink.written
      ((outlet.send frame).1, (outlet.send frame).2.sink.written) := by
  by_cases fits : frame.Fits outlet.limit
  · obtain ⟨next, sent, -, written, -⟩ := send_of_willing willing fits
    rw [sent, written]
    exact fits.encoded
  · -- The sink is not asked, willing or not.
    obtain ⟨assembly, refused⟩ := send_of_large fits
    rw [refused]
    exact Frame.encoded_of_large fits

end FrameOutlet

namespace Frame

/-- **All encoders of frames agree.** Put into a buffer by itself or with a codec, encoded alone, or
sent to a sink that takes everything: a frame is accepted exactly if its tag and body keep the limit
and can be counted in two bytes, and then its length, its tag and its body stand behind what was
there (`Encoded`). Any other frame is refused by `oversize` with `2 + frame.body.length` and the
bound that it exceeds, and what was there stays as it was. No sink, whatever it does, sees anything
of a frame that is refused: neither a write nor a flush. -/
theorem encoders_agree (frame : Frame) :
    (∀ encoder : BufferEncoder, ∀ buffer,
      (encoder.raw frame).perform buffer = some (encoder.run frame buffer) ∧
      frame.Encoded encoder.limit buffer (encoder.run frame buffer)) ∧
    frame.Encoded maxSize [] (filling [] frame.encode) ∧
    (∀ outlet : FrameOutlet, outlet.sink.Willing →
      frame.Encoded outlet.limit outlet.sink.written
        ((outlet.send frame).1, (outlet.send frame).2.sink.written)) ∧
    ∀ outlet : FrameOutlet, 2 + frame.body.length > min outlet.limit 65535 →
      (outlet.send frame).1 = .error (.oversize (2 + frame.body.length)
        (if 2 + frame.body.length > outlet.limit then outlet.limit else 65535)) ∧
      (outlet.send frame).2.sink = outlet.sink := by
  refine ⟨?_, BufferEncoder.plain.encoded_run frame [], ?_, ?_⟩
  · intro encoder buffer
    exact ⟨encoder.perform_raw frame buffer, encoder.encoded_run frame buffer⟩
  · intro outlet willing
    exact FrameOutlet.encoded_send willing frame
  · intro outlet wide
    have large : ¬frame.Fits outlet.limit := mt fits_iff.1 (Nat.not_le_of_gt wide)
    obtain ⟨assembly, refused⟩ := FrameOutlet.send_of_large large
    rw [refused]
    exact ⟨rfl, rfl⟩

/-- A sink that takes a frame in parts, with an interruption between them, holds it behind what was
written before. With a limit of two, the length of a frame without a body, nothing of it is written,
also to a sink that would fail. -/
theorem encoders_agree_small_limit :
    let frame : Frame := ⟨18, [7]⟩
    let parts : FrameOutlet := ⟨⟨[9], [.accept 1, .fault .interrupted, .accept 2], [], 0, 0⟩, 3, []⟩
    let broken : FrameOutlet := ⟨⟨[9], [.fault .brokenPipe], [], 0, 0⟩, 2, []⟩
    ((parts.send frame).1 = .ok () ∧
      (parts.send frame).2.sink.written = [9, 0, 3, 0, 18, 7]) ∧
    (broken.send frame).1 = .error (.oversize 3 2) ∧ (broken.send frame).2.sink = broken.sink := by
  intro frame parts broken
  obtain ⟨-, -, sent, refused⟩ := encoders_agree frame
  have willing : parts.sink.Willing := ⟨by simp [parts], by simp [parts]⟩
  have accepted : (parts.send frame).1 = .ok () := (sent parts willing).accepted_iff.2 (by decide)
  have bytes : parts.sink.written ++ (bigEndian 2 (2 + frame.body.length) ++
      bigEndian 2 frame.tag.toNat ++ frame.body) = [9, 0, 3, 0, 18, 7] := by decide
  have written := (sent parts willing).written accepted
  exact ⟨⟨accepted, written.trans bytes⟩, refused broken (by decide)⟩

end Frame

end PeerWire
