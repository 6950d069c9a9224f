import PeerWire.Frame.Inlet
import PeerWire.Proofs.Chunking
import PeerWire.Proofs.Definedness

/-! # The decoders of frames agree

A frame can be read off a byte string that is complete, or taken off a buffer: by itself, with a
codec while the buffer may still grow, and with a codec when it will not. Each of these looks at the
length for itself. They find the same frame with the same bytes after it, refuse the same lengths
for the same reason, and what is missing of a frame is counted in the same way, also by an inlet
whose source ends there (`BufferDecoder.concur_with_read`). A buffer off which no frame is taken
stays as it is. -/

namespace PeerWire

/-- The ways to take a frame off a buffer. -/
inductive BufferDecoder where
  /-- By itself. -/
  | plain
  /-- With a codec, while the buffer may still grow. -/
  | growing
  /-- With a codec, when the buffer will not grow any more. -/
  | final
  deriving DecidableEq, Repr

namespace BufferDecoder

/-- What is taken off a buffer, by `Frame.takeFrom` or by a codec. -/
def take (limit : Nat) : BufferDecoder → Bytes → Except FrameError (Option (Frame × Bytes))
  | .plain, buffer => Frame.takeFrom buffer limit
  | .growing, buffer => FrameCodec.decode ⟨limit⟩ buffer
  | .final, buffer => FrameCodec.decodeEnd ⟨limit⟩ buffer

/-- What is given of a buffer, and what is left of it: `Frame.leaving buffer (decoder.take limit
buffer)`. -/
def run (limit : Nat) (decoder : BufferDecoder) (buffer : Bytes) :
    Except FrameError (Option Frame) × Bytes :=
  Frame.leaving buffer (decoder.take limit buffer)

/-- The same with operations that look at the buffer, advance it and split it. A codec does at first
what is done without one. -/
def raw (limit : Nat) : BufferDecoder → Raw FrameError (Option Frame)
  | .plain => Frame.rawTakeFrom limit
  | .growing => Frame.rawTakeFrom limit
  | .final => FrameCodec.rawDecodeEnd ⟨limit⟩

variable {buffer rest : Bytes} {limit : Nat} {frame : Frame} {error : FrameError}
  {decoder : BufferDecoder}

/-- The operations are all defined, and leave of the buffer what is said to be left: `decoder.run
limit buffer`. -/
theorem perform_raw (limit : Nat) (decoder : BufferDecoder) (buffer : Bytes) :
    (decoder.raw limit).perform buffer = some (decoder.run limit buffer) := by
  cases decoder with
  | plain => exact Frame.perform_rawTakeFrom limit buffer
  | growing => exact Frame.perform_rawTakeFrom limit buffer
  | final => exact FrameCodec.perform_rawDecodeEnd ⟨limit⟩ buffer

/-! ## What is given and left -/

/-- What is given and left tells what is taken. -/
theorem run_eq_iff (result : Except FrameError (Option (Frame × Bytes))) :
    decoder.run limit buffer = Frame.leaving buffer result ↔
      decoder.take limit buffer = result := by
  constructor
  · intro same
    unfold run at same
    match decoder.take limit buffer, result, same with
    | .ok (some (frame, rest)), .ok (some (frame', rest')), same => simpa [Frame.leaving] using same
    | .ok (some _), .ok none, same | .ok (some _), .error _, same => simp [Frame.leaving] at same
    | .ok none, .ok none, _ => rfl
    | .ok none, .ok (some _), same | .ok none, .error _, same => simp [Frame.leaving] at same
    | .error error, .error error', same => simpa [Frame.leaving] using same
    | .error _, .ok (some _), same | .error _, .ok none, same => simp [Frame.leaving] at same
  · rintro rfl
    rfl

/-! ## Against the decoder of complete byte strings -/

/-- All ways take the frames that `Frame.takeFrom` takes. -/
theorem take_eq_some_iff :
    decoder.take limit buffer = .ok (some (frame, rest)) ↔
      Frame.takeFrom buffer limit = .ok (some (frame, rest)) := by
  cases decoder with
  | plain => rfl
  | growing => rfl
  | final => exact FrameCodec.decodeEnd_eq_some_iff

/-- All ways refuse the lengths that `Frame.read` refuses in a complete byte string. -/
theorem take_eq_error_iff (refusal : Frame.Refusal error) :
    decoder.take limit buffer = .error error ↔ Frame.read buffer limit = .error error := by
  have buffered : Frame.takeFrom buffer limit = .error error ↔
      Frame.read buffer limit = .error error := by
    rw [Frame.takeFrom_eq_error_iff_read, and_iff_left refusal]
  cases decoder with
  | plain => exact buffered
  | growing => exact buffered
  | final =>
      -- An empty buffer has no length to be refused.
      have nonempty (run : Frame.read buffer limit = .error error) : buffer ≠ [] := by
        rintro rfl
        cases run
        cases refusal
      show FrameCodec.decodeEnd ⟨limit⟩ buffer = .error error ↔ _
      rw [FrameCodec.decodeEnd_eq_error_iff]
      exact ⟨And.right, fun run => ⟨nonempty run, run⟩⟩

/-- A frame that is read takes no more than there is: `size ≤ buffer.length`. -/
theorem size_le_of_read {size : Nat} (run : Frame.read buffer limit = .ok (frame, size)) :
    size ≤ buffer.length := by
  obtain ⟨taken, rfl⟩ := Frame.read_eq_ok_iff.1 run
  have whole := congrArg List.length (Frame.eq_of_takeFrom taken)
  rw [List.length_append, Frame.length_toBytes] at whole
  omega

/-- **A frame is read exactly if it is given**, and the bytes that are left, `buffer.drop size`, are
those after it. -/
theorem read_eq_ok_iff_run {size : Nat} :
    Frame.read buffer limit = .ok (frame, size) ↔
      size ≤ buffer.length ∧ decoder.run limit buffer = (.ok (some frame), buffer.drop size) := by
  have given : decoder.run limit buffer = (.ok (some frame), buffer.drop size) ↔
      Frame.takeFrom buffer limit = .ok (some (frame, buffer.drop size)) :=
    (run_eq_iff (.ok (some (frame, buffer.drop size)))).trans take_eq_some_iff
  rw [given]
  constructor
  · intro run
    exact ⟨size_le_of_read run, (Frame.read_eq_ok_iff.1 run).1⟩
  · rintro ⟨inside, taken⟩
    have short : (buffer.drop size).length = buffer.length - size := List.length_drop
    have whole := congrArg List.length (Frame.eq_of_takeFrom taken)
    rw [List.length_append, Frame.length_toBytes, short] at whole
    exact Frame.read_eq_ok_iff.2 ⟨taken, by omega⟩

/-- **A buffer waits exactly if it is cut short** as a complete byte string: `Frame.takeFrom buffer
limit = .ok none`. -/
theorem exists_truncated_iff :
    (∃ expected available,
      Frame.read buffer limit = .error (.truncated expected available)) ↔
      Frame.takeFrom buffer limit = .ok none := by
  rw [Frame.read_eq]
  match found : Frame.takeFrom buffer limit with
  | .ok (some (frame, rest)) => simp
  | .ok none => simp
  | .error error =>
      obtain ⟨-, refusal⟩ := Frame.takeFrom_eq_error_iff_read.1 found
      have other (expected available : Nat) : error ≠ .truncated expected available := by
        rintro rfl
        cases refusal
      simp [other]

/-- A buffer that is cut short is one whose end is reported, if it has any bytes. -/
theorem take_final_of_truncated {expected available : Nat}
    (run : Frame.read buffer limit = .error (.truncated expected available)) :
    BufferDecoder.final.take limit buffer =
      if buffer = [] then .ok none else .error (.truncated expected available) := by
  by_cases empty : buffer = []
  · rw [if_pos empty]
    exact FrameCodec.decodeEnd_eq_none_iff.2 empty
  · rw [if_neg empty]
    exact FrameCodec.decodeEnd_eq_error_iff.2 ⟨empty, run⟩

end BufferDecoder

/-- An inlet whose buffer is cut short and whose source ends reports that end, `closed` or
`truncated`, and keeps the buffer. -/
theorem FrameInlet.receive_of_truncated {buffer : Bytes} {limit expected available : Nat}
    {source next : Source}
    (run : Frame.read buffer limit = .error (.truncated expected available))
    (ended : source.read chunkSize = (.data [], next)) :
    receive ⟨source, buffer, limit⟩ =
      (.error (if buffer = [] then .closed else .truncated expected available),
        ⟨next, buffer, limit⟩) := by
  have waits := BufferDecoder.exists_truncated_iff.1 ⟨expected, available, run⟩
  have pending : endError buffer =
      if buffer = [] then .closed else .truncated expected available := by
    rw [Frame.read_eq, waits] at run
    by_cases empty : buffer = []
    · rw [endError, if_pos (List.isEmpty_iff.2 empty), if_pos empty]
    · rw [endError, if_neg (mt List.isEmpty_iff.1 empty), if_neg empty]
      exact Except.error.inj run
  rw [receive_of_waits waits ended, ← pending]

/-- **The decoders of frames agree on every buffer.** Each way to take a frame off a buffer has a
result and leaves something, `decoder.run limit buffer`. Each gives a frame and leaves `buffer.drop
size` exactly if `Frame.read` reads this frame and says that it ends there. Each refuses a length
and leaves the buffer exactly if the other refuses it for this reason. Before the end, each gives
nothing and leaves the buffer exactly if the other finds the frame cut short. Then, at the end, a
buffer without bytes is a clean end, and any other is reported as `truncated expected available`
with the same two numbers, the buffer being left; and so it is by an inlet that has this buffer and
whose source ends. -/
theorem BufferDecoder.concur_with_read (buffer : Bytes) (limit : Nat) :
    (∀ decoder : BufferDecoder,
      (decoder.raw limit).perform buffer = some (decoder.run limit buffer) ∧
      (∀ frame size, Frame.read buffer limit = .ok (frame, size) ↔
        size ≤ buffer.length ∧
          decoder.run limit buffer = (.ok (some frame), buffer.drop size)) ∧
      (∀ error, Frame.Refusal error →
        (Frame.read buffer limit = .error error ↔
          decoder.run limit buffer = (.error error, buffer))) ∧
      (decoder ≠ .final →
        ((∃ expected available,
            Frame.read buffer limit = .error (.truncated expected available)) ↔
          decoder.run limit buffer = (.ok none, buffer)))) ∧
    ∀ expected available, Frame.read buffer limit = .error (.truncated expected available) →
      BufferDecoder.final.run limit buffer =
        (if buffer = [] then .ok none else .error (.truncated expected available), buffer) ∧
      ∀ source next, source.read FrameInlet.chunkSize = (.data [], next) →
        FrameInlet.receive ⟨source, buffer, limit⟩ =
          (.error (if buffer = [] then .closed else .truncated expected available),
            ⟨next, buffer, limit⟩) := by
  refine ⟨fun decoder => ⟨perform_raw limit decoder buffer, ?_, ?_, ?_⟩, ?_⟩
  · intro frame size
    exact read_eq_ok_iff_run
  · intro error refusal
    exact ((run_eq_iff (.error error)).trans (take_eq_error_iff refusal)).symm
  · intro early
    have waits : decoder.run limit buffer = (.ok none, buffer) ↔
        decoder.take limit buffer = .ok none := run_eq_iff (.ok none)
    rw [exists_truncated_iff, waits]
    cases decoder with
    | plain => rfl
    | growing => rfl
    | final => exact absurd rfl early
  · intro expected available run
    have taken := take_final_of_truncated run
    refine ⟨?_, fun source next ended => FrameInlet.receive_of_truncated run ended⟩
    by_cases empty : buffer = []
    · rw [if_pos empty] at taken ⊢
      exact (run_eq_iff (.ok none)).2 taken
    · rw [if_neg empty] at taken ⊢
      exact (run_eq_iff (.error _)).2 taken

/-- Three bytes of a frame of seven: nothing is there yet, and at the end four are missing. -/
example :
    BufferDecoder.growing.run 10 [0, 5, 1] = (.ok none, [0, 5, 1]) ∧
      BufferDecoder.final.run 10 [0, 5, 1] = (.error (.truncated 7 3), [0, 5, 1]) := by
  decide

end PeerWire
