import PeerWire.Frame.Incremental
import PeerWire.Message.Basic
import PeerWire.Proofs.Agreement
import PeerWire.Proofs.Framing

/-! # No operation is left undefined

Messages and frames are read with partial operations, and what comes of it is what the decoders
give, on every byte string (`decoders_defined`). In particular every operation is defined where it
is reached: the bytes that it needs have been checked for, and sizes stay in their range. -/

namespace PeerWire

open Raw

/-! ## Messages -/

namespace Message

/-- The fields of a message one after the other, counted from `position` on. -/
def rawFields (message : String) : (fields : List Field) → (position : Nat) →
    Raw DecodeError (Values fields)
  | [], _ => return ()
  | field :: fields, position => do
      let next ← add position 1
      let value ← ExceptT.adapt (DecodeError.field message field.name position) field.type.raw
      let values ← rawFields message fields next
      return (value, values)

/-- The fields of a message are read as its cursor reads them, by `FieldCursor.readAll`. -/
theorem perform_rawFields (message : String) (fields : List Field) (position : Nat) (rest : Bytes)
    (few : position + fields.length < sizeCount) :
    match FieldCursor.readAll fields ⟨message, position, rest⟩ with
    | .ok (values, cursor) =>
        (rawFields message fields position).perform rest = some (.ok values, cursor.rest)
    | .error error => ∃ left, (rawFields message fields position).perform rest =
        some (.error error, left) := by
  induction fields generalizing position rest with
  | nil => rfl
  | cons field fields ih =>
      rw [List.length_cons] at few
      -- A position is counted up before its field is read, so that it must be a size even if the
      -- field fails.
      have next : position + 1 < sizeCount := by omega
      have agrees := field.type.agrees rest
      have adapted :=
        perform_adapt (DecodeError.field message field.name position) field.type.raw rest
      rw [agrees] at adapted
      rw [rawFields, add, size_eq_pure next, pure_bind, FieldCursor.readAll, FieldCursor.read]
      cases run : field.type.decoder rest with
      | error cause left =>
          rw [run] at adapted
          exact ⟨left, perform_bind_of_error _ adapted⟩
      | ok value left =>
          rw [run] at adapted
          rw [perform_bind_of_ok _ adapted]
          dsimp only [outcome]
          have later := ih (position + 1) left (by omega)
          cases others : FieldCursor.readAll fields ⟨message, position + 1, left⟩ with
          | error error =>
              rw [others] at later
              obtain ⟨after, failed⟩ := later
              exact ⟨after, perform_bind_of_error _ failed⟩
          | ok found =>
              obtain ⟨values, cursor⟩ := found
              rw [others] at later
              exact perform_bind_of_ok _ later

/-- No kind of message has as many fields as there are sizes: `0 + kind.fields.length <
sizeCount`. -/
theorem length_fields_lt (kind : MessageKind) : 0 + kind.fields.length < sizeCount := by
  cases kind <;> decide

/-- The bytes after a tag. -/
def rawDecode (tag : UInt16) : Raw DecodeError Message :=
  match MessageKind.ofTag? tag with
  | none => do
      let body ← get
      return .unknown tag body
  | some kind => do
      let contents ← rawFields kind.name kind.fields 0
      let extra ← get
      return .known kind contents extra

/-- Bodies are read as they are decoded by `decode tag body`, whatever the tag. -/
theorem perform_rawDecode (tag : UInt16) (body : Bytes) :
    ∃ left, (rawDecode tag).perform body = some (decode tag body, left) := by
  rw [rawDecode, decode]
  cases MessageKind.ofTag? tag with
  | none => exact ⟨body, rfl⟩
  | some kind =>
      have fields := perform_rawFields kind.name kind.fields 0 body (length_fields_lt kind)
      dsimp only
      cases read : FieldCursor.readAll kind.fields ⟨kind.name, 0, body⟩ with
      | error error =>
          rw [read] at fields
          obtain ⟨left, failed⟩ := fields
          exact ⟨left, perform_bind_of_error _ failed⟩
      | ok found =>
          obtain ⟨contents, cursor⟩ := found
          rw [read] at fields
          exact ⟨cursor.rest, perform_bind_of_ok _ fields⟩

/-- A tag and the bytes after it. -/
def rawRead : Raw DecodeError Message := do
  match ← get with
  | high :: low :: body =>
      set body
      rawDecode (UInt16.ofNat (ofBigEndian [high, low]))
  | short => throw (.tag (.truncated 2 short.length))

/-- So are bodies after their tags. -/
theorem perform_rawRead (bytes : Bytes) :
    ∃ left, rawRead.perform bytes = some (read bytes, left) := by
  match bytes with
  | [] | [_] => exact ⟨_, rfl⟩
  | high :: low :: body =>
      obtain ⟨left, run⟩ := perform_rawDecode (UInt16.ofNat (ofBigEndian [high, low])) body
      rw [read, Decoder.u16_cons_cons]
      exact ⟨left, run⟩

end Message

/-! ## Frames -/

namespace Frame

variable {buffer rest : Bytes} {declared limit : Nat}

/-- The length that the first two bytes declare. -/
def rawDeclared : Raw FrameError Nat := do
  let high ← index 0
  let low ← index 1
  return ofBigEndian [high, low]

/-- Two bytes are enough for a length. -/
theorem not_length_lt_lengthWidth (high low : UInt8) (rest : Bytes) :
    ¬(high :: low :: rest).length < lengthWidth := by
  rw [lengthWidth, List.length_cons, List.length_cons]
  omega

/-- A frame is cut off where its content is: `rest.length < declared`. -/
theorem length_lt_add_iff (high low : UInt8) :
    (high :: low :: rest).length < lengthWidth + declared ↔ rest.length < declared := by
  rw [lengthWidth, List.length_cons, List.length_cons]
  omega

/-- What two bytes declare is far below the end of the sizes: adding `lengthWidth` is defined. -/
theorem add_declared_eq_pure {ε : Type} (high low : UInt8) :
    (add lengthWidth (ofBigEndian [high, low]) : Raw ε Nat) =
      pure (lengthWidth + ofBigEndian [high, low]) := by
  have small : ofBigEndian [high, low] < 65536 := ofBigEndian_lt [high, low]
  refine size_eq_pure ?_
  rw [lengthWidth, sizeCount]
  omega

/-- A content with room for a tag starts with two bytes. -/
theorem exists_tag_of_le_length (room : tagWidth ≤ declared) (enough : declared ≤ rest.length) :
    ∃ high low tail, rest = high :: low :: tail ∧ declared - tagWidth ≤ tail.length := by
  have two : tagWidth = 2 := rfl
  match rest with
  | [] | [_] =>
      simp only [List.length_cons, List.length_nil] at enough
      omega
  | high :: low :: tail =>
      simp only [List.length_cons] at enough
      exact ⟨high, low, tail, rfl, by omega⟩

/-- Two bytes declare the number that they write. -/
theorem perform_rawDeclared (high low : UInt8) :
    rawDeclared.perform (high :: low :: rest) =
      some (.ok (ofBigEndian [high, low]), high :: low :: rest) := rfl

/-- The declared length of a buffer that is long enough is read and checked. -/
theorem perform_declared {α : Type} (high low : UInt8) (next : Nat → Raw FrameError α) :
    (do
      let declared ← rawDeclared
      MonadExcept.ofExcept (checkDeclared declared limit)
      next declared).perform (high :: low :: rest) =
    match checkDeclared (ofBigEndian [high, low]) limit with
    | .error error => some (.error error, high :: low :: rest)
    | .ok () => (next (ofBigEndian [high, low])).perform (high :: low :: rest) := by
  have check := perform_ofExcept (checkDeclared (ofBigEndian [high, low]) limit)
    (high :: low :: rest)
  rw [perform_bind_of_ok _ (perform_rawDeclared high low)]
  cases checked : checkDeclared (ofBigEndian [high, low]) limit with
  | error error =>
      rw [checked] at check
      exact perform_bind_of_error _ check
  | ok _ =>
      rw [checked] at check
      exact perform_bind_of_ok _ check

/-- The frame at the front of a buffer up to its end, `total`; the buffer stays as it is. -/
def rawUpTo (total : Nat) : Raw FrameError Frame := do
  let high ← index 2
  let low ← index 3
  let body ← slice (lengthWidth + tagWidth) total
  return ⟨UInt16.ofNat (ofBigEndian [high, low]), body⟩

/-- A frame is read where its content is all there. -/
theorem perform_rawUpTo (high low : UInt8) (room : tagWidth ≤ declared)
    (enough : declared ≤ rest.length) :
    (rawUpTo (lengthWidth + declared)).perform (high :: low :: rest) =
      some (.ok ⟨UInt16.ofNat (ofBigEndian ((rest.take declared).take tagWidth)),
        (rest.take declared).drop tagWidth⟩, high :: low :: rest) := by
  have inside := Nat.le_of_not_lt (mt (length_lt_add_iff high low).1 (Nat.not_lt_of_le enough))
  obtain ⟨tagHigh, tagLow, tail, rfl, -⟩ := exists_tag_of_le_length room enough
  have first : (index 2 : Raw FrameError UInt8).perform (high :: low :: tagHigh :: tagLow :: tail) =
      some (.ok tagHigh, high :: low :: tagHigh :: tagLow :: tail) := perform_index rfl
  have second :
      (index 3 : Raw FrameError UInt8).perform (high :: low :: tagHigh :: tagLow :: tail) =
        some (.ok tagLow, high :: low :: tagHigh :: tagLow :: tail) := perform_index rfl
  rw [rawUpTo, perform_bind_of_ok _ first, perform_bind_of_ok _ second,
    perform_bind_of_ok _ (perform_slice (Nat.add_le_add_left room _) inside)]
  obtain ⟨remaining, rfl⟩ := Nat.exists_eq_add_of_le' room
  rw [Nat.add_comm lengthWidth (remaining + tagWidth)]
  rfl

/-- The frame at the front of a buffer and its size; the buffer stays as it is. -/
def rawRead (limit : Nat) : Raw FrameError (Frame × Nat) := do
  let buffer ← get
  if buffer.length < lengthWidth then throw (.truncated lengthWidth buffer.length)
  let declared ← rawDeclared
  MonadExcept.ofExcept (checkDeclared declared limit)
  let total ← add lengthWidth declared
  if buffer.length < total then throw (.truncated total buffer.length)
  let frame ← rawUpTo total
  return (frame, total)

/-- **A frame at the front of a byte string is read with operations that are all defined.** -/
theorem perform_rawRead (limit : Nat) (buffer : Bytes) :
    (rawRead limit).perform buffer = some (read buffer limit, buffer) := by
  match buffer with
  | [] | [_] => rfl
  | high :: low :: rest =>
      rw [rawRead, perform_get_bind, if_neg (not_length_lt_lengthWidth high low rest),
        perform_declared, read]
      cases checked : checkDeclared (ofBigEndian [high, low]) limit with
      | error error => rfl
      | ok _ =>
          obtain ⟨-, room⟩ := checkDeclared_eq_ok_iff.1 checked
          dsimp only
          rw [add_declared_eq_pure, pure_bind, List.length_take]
          rcases Nat.lt_or_ge rest.length (ofBigEndian [high, low]) with short | enough
          · rw [if_pos ((length_lt_add_iff high low).2 short), if_neg (by omega)]
            rfl
          · rw [if_neg (mt (length_lt_add_iff high low).1 (Nat.not_lt_of_le enough)),
              if_pos (by omega), perform_bind_of_ok _ (perform_rawUpTo high low room enough)]
            rfl

/-- Takes a frame off the front of a buffer, whose content is as long as declared. -/
def rawTake (declared : Nat) : Raw FrameError Frame := do
  advance lengthWidth
  let tag ← UInt16.ofNat <$> getUint 2
  let remaining ← sub declared tagWidth
  let body ← splitTo remaining
  return ⟨tag, body⟩

/-- A frame is taken off where its content is all there. -/
theorem perform_rawTake (high low : UInt8) (room : tagWidth ≤ declared)
    (enough : declared ≤ rest.length) :
    ∃ frame left, contentDecoder declared rest = .ok frame left ∧
      (rawTake declared).perform (high :: low :: rest) = some (.ok frame, left) := by
  obtain ⟨tagHigh, tagLow, tail, rfl, whole⟩ := exists_tag_of_le_length room enough
  refine ⟨⟨.ofNat (ofBigEndian [tagHigh, tagLow]), tail.take (declared - tagWidth)⟩,
    tail.drop (declared - tagWidth), ?_, ?_⟩
  · rw [contentDecoder, Decoder.bind_of_ok (Decoder.u16_cons_cons tagHigh tagLow tail),
      Decoder.bind_of_ok (Decoder.take_of_le_length whole)]
    rfl
  · have advanced : (advance lengthWidth : Raw FrameError Unit).perform
        (high :: low :: tagHigh :: tagLow :: tail) = some (.ok (), tagHigh :: tagLow :: tail) :=
      perform_advance (Nat.le_add_left 2 _)
    have tag : (UInt16.ofNat <$> getUint 2 : Raw FrameError UInt16).perform
        (tagHigh :: tagLow :: tail) =
          some (.ok (UInt16.ofNat (ofBigEndian [tagHigh, tagLow])), tail) := rfl
    rw [rawTake, perform_bind_of_ok _ advanced, perform_bind_of_ok _ tag, sub_eq_pure room,
      pure_bind, perform_bind_of_ok _ (perform_splitTo whole)]
    rfl

/-- Takes a complete frame off the front of a buffer; `none` while bytes are missing. -/
def rawTakeFrom (limit : Nat) : Raw FrameError (Option Frame) := do
  let buffer ← get
  if buffer.length < lengthWidth then return none
  let declared ← rawDeclared
  MonadExcept.ofExcept (checkDeclared declared limit)
  let total ← add lengthWidth declared
  if buffer.length < total then return none
  let frame ← rawTake declared
  return some frame

/-- What taking a frame off a buffer gives and leaves: what comes after the frame, or the buffer as
it is. -/
def leaving (buffer : Bytes) : Except FrameError (Option (Frame × Bytes)) →
    Except FrameError (Option Frame) × Bytes
  | .ok (some (frame, rest)) => (.ok (some frame), rest)
  | .ok none => (.ok none, buffer)
  | .error error => (.error error, buffer)

/-- A content that is not all there is not read. -/
theorem contentDecoder_of_length_lt (short : rest.length < declared) (room : tagWidth ≤ declared) :
    ∃ cause left, contentDecoder declared rest = .error cause left := by
  cases run : contentDecoder declared rest with
  | error cause left => exact ⟨cause, left, rfl⟩
  | ok frame left =>
      obtain ⟨whole, body⟩ := eq_of_contentDecoder run
      have two : tagWidth = 2 := rfl
      rw [whole, List.length_append, List.length_append, length_bigEndian] at short
      omega

/-- **A frame is taken off a buffer with operations that are all defined**: `rawTakeFrom limit`
gives what `takeFrom buffer limit` gives. -/
theorem perform_rawTakeFrom (limit : Nat) (buffer : Bytes) :
    (rawTakeFrom limit).perform buffer = some (leaving buffer (takeFrom buffer limit)) := by
  match buffer with
  | [] | [_] => rfl
  | high :: low :: rest =>
      have content : (high :: low :: rest).drop lengthWidth = rest := rfl
      rw [rawTakeFrom, perform_get_bind, if_neg (not_length_lt_lengthWidth high low rest),
        perform_declared, takeFrom, content]
      dsimp only [declaredBy?]
      cases checked : checkDeclared (ofBigEndian [high, low]) limit with
      | error error => rfl
      | ok _ =>
          -- A length that passes the check has room for a tag, so that taking the width of the tag
          -- from it does not go below zero.
          obtain ⟨-, room⟩ := checkDeclared_eq_ok_iff.1 checked
          dsimp only
          rw [add_declared_eq_pure, pure_bind]
          rcases Nat.lt_or_ge rest.length (ofBigEndian [high, low]) with short | enough
          · obtain ⟨cause, left, failed⟩ := contentDecoder_of_length_lt short room
            rw [if_pos ((length_lt_add_iff high low).2 short), failed]
            rfl
          · obtain ⟨frame, left, run, taken⟩ := perform_rawTake high low room enough
            rw [if_neg (mt (length_lt_add_iff high low).1 (Nat.not_lt_of_le enough)), run,
              perform_bind_of_ok _ taken]
            rfl

end Frame

/-- Takes a frame off a buffer that will not grow any more; `none` when it is empty. -/
def FrameCodec.rawDecodeEnd (codec : FrameCodec) : Raw FrameError (Option Frame) := do
  match ← Frame.rawTakeFrom codec.limit with
  | some frame => return some frame
  | none =>
      let buffer ← get
      if buffer.isEmpty then return none
      let expected ←
        if buffer.length < Frame.lengthWidth then pure Frame.lengthWidth
        else do
          let declared ← Frame.rawDeclared
          add Frame.lengthWidth declared
      throw (.truncated expected buffer.length)

/-- A buffer that will not grow any more is treated like one that will, unless it ends within a
frame. -/
theorem FrameCodec.perform_rawDecodeEnd (codec : FrameCodec) (buffer : Bytes) :
    codec.rawDecodeEnd.perform buffer = some (Frame.leaving buffer (codec.decodeEnd buffer)) := by
  have taken := Frame.perform_rawTakeFrom codec.limit buffer
  rw [rawDecodeEnd, decodeEnd, decode]
  match found : Frame.takeFrom buffer codec.limit with
  | .error error =>
      rw [found] at taken
      exact perform_bind_of_error _ taken
  | .ok (some (frame, rest)) =>
      rw [found] at taken
      exact perform_bind_of_ok _ taken
  | .ok none =>
      rw [found] at taken
      rw [perform_bind_of_ok _ taken]
      match buffer with
      | [] | [_] => rfl
      | high :: low :: rest =>
          have long := Frame.not_length_lt_lengthWidth high low rest
          rw [perform_get_bind]
          simp only [List.isEmpty_cons, Bool.false_eq_true, if_false, if_neg long]
          rw [perform_bind_of_ok _ (Frame.perform_rawDeclared high low),
            Frame.add_declared_eq_pure, pure_bind]
          rfl

/-- **No operation of the decoders is left undefined.** For every limit and every byte string, tag
and body, the readers that are written with partial operations have a result, which is that of the
decoders: `Frame.read` for a frame at the front of a byte string, `Frame.takeFrom` for taking a
frame off a buffer, `codec.decodeEnd` for taking the last frames off it, `Message.decode` for the
body of a message and `Message.read` for a message with its tag. The buffers of frames are left as
the decoders leave them. -/
theorem decoders_defined :
    (∀ limit bytes, (Frame.rawRead limit).perform bytes = some (Frame.read bytes limit, bytes)) ∧
    (∀ limit buffer, (Frame.rawTakeFrom limit).perform buffer =
      some (Frame.leaving buffer (Frame.takeFrom buffer limit))) ∧
    (∀ (codec : FrameCodec) buffer, codec.rawDecodeEnd.perform buffer =
      some (Frame.leaving buffer (codec.decodeEnd buffer))) ∧
    (∀ tag body, ∃ left, (Message.rawDecode tag).perform body =
      some (Message.decode tag body, left)) ∧
    ∀ bytes, ∃ left, Message.rawRead.perform bytes = some (Message.read bytes, left) :=
  ⟨Frame.perform_rawRead, Frame.perform_rawTakeFrom, FrameCodec.perform_rawDecodeEnd,
    Message.perform_rawDecode, Message.perform_rawRead⟩

end PeerWire
