import PeerWire.Proofs.RoundTrip

/-! # Bodies that bytes are appended to

A decoder is *settled* when what it makes of a byte string stays what it is when bytes are appended,
unless it asks for more of them: a value is the same, with the new bytes behind those that were
left, and so is every error other than a want of bytes. The decoder of every type of field is
settled (`FieldType.settled`), so a later version of a message that only appends to it is read as
the message with more bytes after its fields, and a body that is wrong stays wrong in the same way
(`Message.decode_append`). -/

namespace PeerWire

/-- Bytes are missing: the error is a `truncated`. -/
def CodecError.IsTruncated : CodecError → Prop
  | .truncated _ _ => True
  | .misaligned _ _ => False
  | .invalid _ => False

namespace Decoder

variable {α β : Type}

/-! ## Settled decoders -/

/-- Appended bytes are left with the rest, and change neither a value nor an error other than a want
of bytes. -/
structure Settled (decoder : Decoder α) : Prop where
  /-- A value stays. -/
  ok {source rest : Bytes} {value : α} :
    decoder source = .ok value rest →
      ∀ more, decoder (source ++ more) = .ok value (rest ++ more)
  /-- An error other than a want of bytes stays. -/
  error {source left : Bytes} {cause : CodecError} :
    decoder source = .error cause left → ¬cause.IsTruncated →
      ∀ more, decoder (source ++ more) = .error cause (left ++ more)

/-- Returning takes nothing: `pure value` is settled. -/
theorem settled_pure (value : α) : (pure value : Decoder α).Settled where
  ok run more := by
    obtain ⟨rfl, rfl⟩ := pure_eq_ok_iff.1 run
    rfl
  error failed := by cases failed

/-- A failure does not look at the bytes. -/
theorem settled_throw (cause : CodecError) : (throw cause : Decoder α).Settled where
  ok run := absurd run throw_ne_ok
  error failed _ more := by
    cases failed
    rfl

/-- Settled steps make a settled decoder `first >>= next`: the first hands the appended bytes on to
the next. -/
theorem Settled.bind {first : Decoder α} {next : α → Decoder β} (settled : first.Settled)
    (follows : ∀ value, (next value).Settled) : (first >>= next).Settled where
  ok run more := by
    obtain ⟨head, middle, began, ended⟩ := bind_eq_ok_iff.1 run
    have began' := settled.ok began more
    rw [bind_of_ok began']
    exact (follows head).ok ended more
  error {source left cause} failed other more := by
    cases run : first source with
    | ok head middle =>
        rw [bind_of_ok run] at failed
        rw [bind_of_ok (settled.ok run more)]
        exact (follows head).error failed other more
    | error cause' left' =>
        rw [bind_of_error run] at failed
        cases failed
        exact bind_of_error (settled.error run other more)

/-- Converting a value does not look at the bytes. -/
theorem Settled.map {decoder : Decoder α} (settled : decoder.Settled) (convert : α → β) :
    (convert <$> decoder).Settled := by
  rw [map_eq_pure_bind]
  exact settled.bind fun value => settled_pure (convert value)

/-- A choice by a `condition` that does not depend on the bytes. -/
theorem Settled.ite {condition : Prop} [Decidable condition] {first second : Decoder α}
    (yes : first.Settled) (no : second.Settled) :
    (if condition then first else second).Settled := by
  by_cases holds : condition
  · rw [if_pos holds]
    exact yes
  · rw [if_neg holds]
    exact no

/-! ## Numbers and byte strings -/

/-- Taking bytes can only fail for want of them. -/
theorem settled_take (count : Nat) : (take count).Settled where
  ok {source rest front} run more := by
    obtain ⟨word, rfl, rfl⟩ := (accepts_take count _ _ _).1 run
    rw [List.append_assoc]
    exact take_append front (rest ++ more)
  error {source left cause} failed other more := by
    by_cases enough : count ≤ source.length
    · rw [take_of_le_length enough] at failed
      cases failed
    · rw [take_of_length_lt (Nat.lt_of_not_le enough)] at failed
      cases failed
      exact absurd trivial other

/-- So can looking whether they are there, by `ensure`. -/
theorem settled_ensure (count : Nat) : (ensure count).Settled where
  ok run more := by
    obtain ⟨enough, rfl⟩ := ensure_eq_ok_iff.1 run
    refine ensure_eq_ok_iff.2 ⟨?_, rfl⟩
    rw [List.length_append]
    exact Nat.le_add_right_of_le enough
  error {source left cause} failed other more := by
    unfold ensure at failed
    split at failed
    · cases failed
    · cases failed
      exact absurd trivial other

/-- A number is taken from its bytes. -/
theorem settled_number (width : Nat) : (number width).Settled :=
  (settled_take width).bind fun _ => settled_pure _

/-- A one-byte number. -/
theorem settled_u8 : u8.Settled := (settled_number 1).map _

/-- A two-byte number. -/
theorem settled_u16 : u16.Settled := (settled_number 2).map _

/-- A four-byte number. -/
theorem settled_u32 : u32.Settled := (settled_number 4).map _

/-- An eight-byte number. -/
theorem settled_u64 : u64.Settled := (settled_number 8).map _

/-- A flag is judged by its byte. -/
theorem settled_flag : flag.Settled :=
  settled_u8.bind fun _ => (settled_pure _).ite ((settled_pure _).ite (settled_throw _))

/-- A byte string is taken after its length. -/
theorem settled_bytes : bytes.Settled :=
  settled_u16.bind fun length => (settled_take length.toNat).bind fun _ => settled_pure _

/-- Settled items one after the other. -/
theorem settled_repeatItem {item : Decoder α} (settled : item.Settled) (count : Nat)
    (done : List α) : (repeatItem item count done).Settled := by
  induction count generalizing done with
  | zero => exact settled_pure _
  | succ count ih => exact settled.bind fun value => ih (value :: done)

/-- Settled items after their count. -/
theorem settled_counted {item : Decoder α} (settled : item.Settled) (width : Nat) :
    (counted width item).Settled :=
  settled_u16.bind fun count => (settled_ensure _).bind fun _ =>
    settled_repeatItem settled count.toNat []

end Decoder

/-! ## Fields -/

open Decoder

/-- A block of addresses is read on its own, whatever comes after it. -/
theorem AddressList.settled : AddressList.decoder.Settled := by
  refine settled_bytes.bind fun block => ?_
  cases parseBlock [] block with
  | error cause => exact settled_throw cause
  | ok list => exact settled_pure list

/-- So is the payload of a list of ids. -/
theorem IdList.settled : IdList.decoder.Settled := by
  refine settled_u16.bind fun length => ?_
  refine (settled_throw _).ite ?_
  refine (settled_ensure length.toNat).bind fun _ => settled_u8.bind fun byte => ?_
  cases IdEncoding.ofByte? byte with
  | none => exact settled_throw _
  | some encoding =>
      refine (settled_take (length.toNat - 1)).bind fun payload => ?_
      cases parsePayload encoding payload.1 with
      | error cause => exact settled_throw cause
      | ok ids => exact settled_pure _

/-- **The decoder of every type of field is settled**: `type.decoder.Settled`. -/
theorem FieldType.settled (type : FieldType) : type.decoder.Settled := by
  cases type with
  | u8 => exact settled_u8
  | u16 => exact settled_u16
  | u32 => exact settled_u32
  | u64 => exact settled_u64
  | flag => exact settled_flag
  | milliSatoshi => exact settled_u64.map _
  | satoshi => exact settled_u64.map _
  | feeRate => exact settled_u32.map _
  | blob kind => exact (settled_take kind.width).map _
  | bytes => exact settled_bytes
  | features => exact settled_bytes.map _
  | signatures => exact settled_counted ((settled_take _).map _) _
  | shortChannelId => exact settled_u64.map _
  | addresses => exact AddressList.settled
  | idList => exact IdList.settled

/-! ## Messages -/

namespace Message

variable {kind : MessageKind} {body : Bytes} {message : Message} {error : DecodeError}

/-- A decoded message keeps its declared fields when bytes are appended, and gets `extra ++ more`
after them. -/
theorem decode_append_of_ok (decoded : decode kind.tag body = .ok message) (more : Bytes) :
    ∃ contents extra, message = .known kind contents extra ∧
      decode kind.tag (body ++ more) = .ok (.known kind contents (extra ++ more)) := by
  rcases decode_eq_ok_iff.1 decoded with ⟨foreign, -⟩ |
    ⟨other, words, contents, extra, same, rfl, denoted, rfl⟩
  · rw [MessageKind.ofTag?_tag] at foreign
    cases foreign
  · obtain rfl : kind = other := MessageKind.tag_injective same
    refine ⟨contents, extra, rfl, ?_⟩
    rw [List.append_assoc]
    exact decode_of_denotes denoted (extra ++ more)

/-- A refused body is refused in the same way when bytes are appended, `decode kind.tag (body ++
more) = .error error`, unless some were missing. -/
theorem decode_append_of_error (refused : decode kind.tag body = .error error)
    (other : ¬error.cause.IsTruncated) (more : Bytes) :
    decode kind.tag (body ++ more) = .error error := by
  rcases FieldCursor.spelled_or_error kind.fields body with ⟨words, extra, spelled, rfl⟩ |
    ⟨prior, field, later, words, rest, cause, left, fields, spelled, rfl, failed⟩
  · obtain ⟨contents, denoted⟩ := Values.exists_denotes_iff.2 spelled
    rw [decode_of_denotes denoted] at refused
    cases refused
  · -- The field that failed fails on the longer rest too, and the words before it are the same.
    rw [decode_of_error fields spelled failed] at refused
    cases refused
    have failed' := field.type.settled.error failed other more
    rw [List.append_assoc]
    exact decode_of_error fields spelled failed'

/-- **Appended bytes are kept and change nothing else.** A body that is decoded is decoded with any
bytes appended, `body ++ more`, to the same declared fields, and these bytes come after what was
after the fields before, as `extra ++ more`, in the message and when it is written back. A body that
is refused for another reason than missing bytes is refused, with any bytes appended, with the same
error. -/
theorem decode_append (kind : MessageKind) (body more : Bytes) :
    (∀ message, decode kind.tag body = .ok message →
      ∃ contents extra longer, message = .known kind contents extra ∧
        longer = .known kind contents (extra ++ more) ∧
        decode kind.tag (body ++ more) = .ok longer ∧ longer.body = message.body ++ more) ∧
    ∀ error, decode kind.tag body = .error error → ¬error.cause.IsTruncated →
      decode kind.tag (body ++ more) = .error error := by
  constructor
  · intro message decoded
    obtain ⟨contents, extra, rfl, decoded'⟩ := decode_append_of_ok decoded more
    refine ⟨contents, extra, _, rfl, rfl, decoded', ?_⟩
    show Values.encode kind.fields contents ++ (extra ++ more) =
      Values.encode kind.fields contents ++ extra ++ more
    exact (List.append_assoc _ _ _).symm
  · intro error refused other
    exact decode_append_of_error refused other more

/-- A flag byte that is neither 0 nor 1 is refused, alone and with a byte after it; a flag that is
missing is there with one more byte. -/
example :
    let hash : Bytes := List.replicate 32 0
    let refused : Except DecodeError Message :=
      .error (.field "reply_short_channel_ids_end" "complete" 1 (.invalid (.flag 2)))
    decode 262 (hash ++ [2]) = refused ∧ decode 262 (hash ++ [2] ++ [1]) = refused ∧
      decode 262 hash =
        .error (.field "reply_short_channel_ids_end" "complete" 1 (.truncated 1 0)) ∧
      decode 262 (hash ++ [1]) = .ok (.known .replyShortChannelIdsEnd (.zero, true, ()) []) := by
  decide

end Message

end PeerWire
