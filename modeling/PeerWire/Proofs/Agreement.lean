import PeerWire.Proofs.FieldDecoding
import PeerWire.Proofs.Primitives

/-! # Readers of fields

The decoders of fields once more, written with partial operations: what must be checked before an
operation is checked by the reader that uses it, never by the operation. A reader and a decoder
agree on a byte string if the reader is defined there and both give the same and leave the same
(`Raw.Agrees`). Agreement is carried from the parts of a reader to the whole, each part on the bytes
that the parts before it leave, up to the types of fields (`FieldType.agrees`). -/

namespace PeerWire

namespace Raw

variable {ε α β : Type} {source rest : Bytes} {count width : Nat}

/-! ## Agreement -/

/-- What a decoder gives and leaves, as a reader would. -/
def outcome : EStateM.Result ε Bytes α → Except ε α × Bytes
  | .ok value rest => (.ok value, rest)
  | .error error rest => (.error error, rest)

/-- On a byte string a reader is defined, and gives and leaves what a decoder does: `raw.perform
source = some (outcome (decoder source))`. -/
def Agrees (raw : Raw CodecError α) (decoder : Decoder α) (source : Bytes) : Prop :=
  raw.perform source = some (outcome (decoder source))

variable {raw : Raw CodecError α} {decoder : Decoder α}

/-- Returning agrees: `pure value`. -/
theorem agrees_pure (value : α) (source : Bytes) : Agrees (pure value) (pure value) source := rfl

/-- So does failing: `throw cause`. -/
theorem agrees_throw (cause : CodecError) (source : Bytes) :
    Agrees (throw cause : Raw CodecError α) (throw cause) source := rfl

/-- Parts that agree make a whole that agrees; `next` need only agree on what the first part
leaves. -/
theorem Agrees.bind {next : α → Raw CodecError β} {next' : α → Decoder β}
    (agrees : Agrees raw decoder source)
    (later : ∀ value rest, decoder source = .ok value rest →
      Agrees (next value) (next' value) rest) :
    Agrees (raw >>= next) (decoder >>= next') source := by
  unfold Agrees at agrees ⊢
  cases run : decoder source with
  | ok value rest =>
      rw [run] at agrees
      rw [perform_bind_of_ok next agrees, Decoder.bind_of_ok run]
      exact later value rest run
  | error cause left =>
      rw [run] at agrees
      rw [perform_bind_of_error next agrees, Decoder.bind_of_error run]
      rfl

/-- Converted values agree. -/
theorem Agrees.map (agrees : Agrees raw decoder source) (convert : α → β) :
    Agrees (convert <$> raw) (convert <$> decoder) source := by
  rw [map_eq_pure_bind, map_eq_pure_bind]
  exact agrees.bind fun value rest _ => agrees_pure (convert value) rest

/-- A choice by a `condition` agrees if both sides do. -/
theorem Agrees.ite {condition : Prop} [Decidable condition] {raw' : Raw CodecError α}
    {decoder' : Decoder α} (agrees : condition → Agrees raw decoder source)
    (agrees' : ¬condition → Agrees raw' decoder' source) :
    Agrees (if condition then raw else raw') (if condition then decoder else decoder') source := by
  by_cases true : condition
  · rw [if_pos true, if_pos true]
    exact agrees true
  · rw [if_neg true, if_neg true]
    exact agrees' true

/-! ## Parts of fields -/

/-- Fails by `truncated` unless `count` bytes are left. -/
def ensure (count : Nat) : Raw CodecError Unit := do
  let buffer ← get
  if buffer.length < count then throw (.truncated count buffer.length)

/-- Looking for bytes that are not there fails. -/
theorem perform_ensure_of_lt (short : source.length < count) :
    (ensure count).perform source = some (.error (.truncated count source.length), source) := by
  rw [ensure, perform_get_bind, if_pos short]
  rfl

/-- Looking for bytes that are there changes nothing. -/
theorem perform_ensure_of_le (enough : count ≤ source.length) :
    (ensure count).perform source = some (.ok (), source) := by
  rw [ensure, perform_get_bind,
    if_neg (Nat.not_lt_of_le enough)]
  rfl

/-- Looking whether bytes are there agrees. -/
theorem agrees_ensure (count : Nat) (source : Bytes) :
    Agrees (ensure count) (Decoder.ensure count) source := by
  unfold Agrees Decoder.ensure
  rw [List.length_take]
  rcases Nat.lt_or_ge source.length count with short | enough
  · rw [perform_ensure_of_lt short, if_neg (by omega)]
    rfl
  · rw [perform_ensure_of_le enough, if_pos (by omega)]
    rfl

/-- A number is read by `getUint` where its bytes are there. -/
theorem agrees_getUint (enough : width ≤ source.length) :
    Agrees (getUint width) (Decoder.number width) source := by
  rw [Agrees, Decoder.number_of_le_length enough]
  exact perform_getUint enough

/-- An array is filled by `copyToSlice` where its bytes are there. -/
theorem agrees_copyToSlice (enough : count ≤ source.length) :
    Agrees (copyToSlice count) (Decoder.take count) source := by
  rw [Agrees, Decoder.take_of_le_length enough]
  exact perform_copyToSlice enough

/-- A check in front, `ensure count`, agrees with a decoder that checks for itself. -/
theorem agrees_of_ensure
    (short : source.length < count →
      decoder source = .error (.truncated count source.length) source)
    (enough : count ≤ source.length → Agrees raw decoder source) :
    Agrees (do ensure count; raw) decoder source := by
  unfold Agrees at enough ⊢
  rcases Nat.lt_or_ge source.length count with lacks | there
  · rw [perform_bind_of_error _ (perform_ensure_of_lt lacks), short lacks]
    rfl
  · rw [perform_bind_of_ok _ (perform_ensure_of_le there)]
    exact enough there

/-- A number of `width` bytes. -/
def number (width : Nat) : Raw CodecError Nat := do
  ensure width
  getUint width

/-- A one-byte number. -/
def u8 : Raw CodecError UInt8 := UInt8.ofNat <$> number 1

/-- A two-byte number. -/
def u16 : Raw CodecError UInt16 := UInt16.ofNat <$> number 2

/-- A four-byte number. -/
def u32 : Raw CodecError UInt32 := UInt32.ofNat <$> number 4

/-- An eight-byte number. -/
def u64 : Raw CodecError UInt64 := UInt64.ofNat <$> number 8

/-- Numbers agree. -/
theorem agrees_number (width : Nat) (source : Bytes) :
    Agrees (number width) (Decoder.number width) source :=
  agrees_of_ensure
    (fun lacks => Decoder.bind_of_error (Decoder.take_of_length_lt lacks)) agrees_getUint

/-- One-byte numbers agree. -/
theorem agrees_u8 (source : Bytes) : Agrees u8 Decoder.u8 source :=
  (agrees_number 1 source).map _

/-- Two-byte numbers agree. -/
theorem agrees_u16 (source : Bytes) : Agrees u16 Decoder.u16 source :=
  (agrees_number 2 source).map _

/-- Four-byte numbers agree. -/
theorem agrees_u32 (source : Bytes) : Agrees u32 Decoder.u32 source :=
  (agrees_number 4 source).map _

/-- Eight-byte numbers agree. -/
theorem agrees_u64 (source : Bytes) : Agrees u64 Decoder.u64 source :=
  (agrees_number 8 source).map _

/-- A flag byte, 0 or 1. -/
def flag : Raw CodecError Bool := do
  let byte ← u8
  if byte = 0 then return false
  else if byte = 1 then return true
  else throw (.invalid (.flag byte))

/-- Flags agree. -/
theorem agrees_flag (source : Bytes) : Agrees flag Decoder.flag source :=
  (agrees_u8 source).bind fun _ rest _ =>
    Agrees.ite (fun _ => agrees_pure _ rest) fun _ =>
      Agrees.ite (fun _ => agrees_pure _ rest) fun _ => agrees_throw _ rest

/-- An array of bytes. -/
def array (count : Nat) : Raw CodecError (Octets count) := do
  ensure count
  copyToSlice count

/-- Arrays agree. -/
theorem agrees_array (count : Nat) (source : Bytes) :
    Agrees (array count) (Decoder.take count) source :=
  agrees_of_ensure Decoder.take_of_length_lt agrees_copyToSlice

/-- A byte string after its two-byte length. -/
def bytes : Raw CodecError Bytes := do
  let length ← u16
  let content ← array length.toNat
  return content.1

/-- Counted byte strings agree. -/
theorem agrees_bytes (source : Bytes) : Agrees bytes Decoder.bytes source :=
  (agrees_u16 source).bind fun length _ _ =>
    (agrees_array length.toNat _).bind fun _ _ _ => agrees_pure _ _

/-- The same item `count` more times; `done` holds the items taken so far, last one first. -/
def repeatItem (item : Raw CodecError α) : (count : Nat) → (done : List α) →
    Raw CodecError (List α)
  | 0, done => return done.reverse
  | count + 1, done => do
      let value ← item
      repeatItem item count (value :: done)

/-- Repeated items agree if the items do. -/
theorem agrees_repeatItem (agrees : ∀ source, Agrees raw decoder source) (count : Nat)
    (done : List α) (source : Bytes) :
    Agrees (repeatItem raw count done) (Decoder.repeatItem decoder count done) source := by
  induction count generalizing done source with
  | zero => exact agrees_pure _ source
  | succ count ih => exact (agrees source).bind fun value rest _ => ih (value :: done) rest

/-- Items after their two-byte count. -/
def counted (width : Nat) (item : Raw CodecError α) : Raw CodecError (List α) := do
  let count ← u16
  let total ← mul count.toNat width
  ensure total
  repeatItem item count.toNat []

/-- Counted items agree if the items do behind the check for them, `ensure (count * width)`; the
product of their number and their width is a size. -/
theorem agrees_counted_of_checked
    (checked : ∀ count source,
      Agrees (do ensure (count * width); repeatItem raw count [])
        (Decoder.ensure (count * width) >>= fun _ => Decoder.repeatItem decoder count []) source)
    (narrow : 65535 * width < sizeCount) (source : Bytes) :
    Agrees (counted width raw) (Decoder.counted width decoder) source := by
  refine (agrees_u16 source).bind fun count rest _ => ?_
  have small : count.toNat * width < sizeCount :=
    Nat.lt_of_le_of_lt (Nat.mul_le_mul_right width (Nat.le_of_lt_succ count.toNat_lt)) narrow
  rw [mul, size_eq_pure small, pure_bind]
  exact checked count.toNat rest

/-- Counted items agree if the items do, for every `width` with `65535 * width < sizeCount`. -/
theorem agrees_counted (agrees : ∀ source, Agrees raw decoder source)
    (narrow : 65535 * width < sizeCount) (source : Bytes) :
    Agrees (counted width raw) (Decoder.counted width decoder) source :=
  agrees_counted_of_checked (fun count source => (agrees_ensure _ source).bind fun _ rest _ =>
    agrees_repeatItem agrees count [] rest) narrow source

/-- The items that fill the next `length` bytes. -/
def records (length width : Nat) (item : Raw CodecError α) : Raw CodecError (List α) := do
  let beyond ← rem length width
  if beyond ≠ 0 then throw (.misaligned length width)
  ensure length
  let count ← div length width
  repeatItem item count []

/-- Records agree if the items do behind the check for them, `ensure length`. -/
theorem agrees_records_of_checked {length : Nat}
    (checked : width ∣ length →
      Agrees (do ensure length; repeatItem raw (length / width) [])
        (Decoder.ensure length >>= fun _ => Decoder.repeatItem decoder (length / width) []) source)
    (wide : width ≠ 0) :
    Agrees (records length width raw) (Decoder.records length width decoder) source := by
  unfold records
  rw [rem_eq_pure wide, pure_bind, div_eq_pure wide]
  refine Agrees.ite (fun _ => agrees_throw _ source) fun whole => ?_
  exact checked (Nat.dvd_of_mod_eq_zero (Decidable.not_not.1 whole))

/-- Records agree if the items do and `width ≠ 0`. -/
theorem agrees_records (agrees : ∀ source, Agrees raw decoder source) (length : Nat)
    (wide : width ≠ 0) (source : Bytes) :
    Agrees (records length width raw) (Decoder.records length width decoder) source :=
  agrees_records_of_checked (fun _ => (agrees_ensure _ source).bind fun _ rest _ =>
    agrees_repeatItem agrees _ [] rest) wide

end Raw

open Raw

/-! ## Blobs and short channel ids -/

/-- A blob, from an array of its width. -/
def Blob.raw {kind : BlobKind} : Raw CodecError (Blob kind) := Blob.mk <$> array kind.width

/-- Blobs agree. -/
theorem Blob.agrees (kind : BlobKind) (source : Bytes) :
    Agrees (Blob.raw : Raw CodecError (Blob kind)) Blob.decoder source :=
  (agrees_array kind.width source).map Blob.mk

/-- A short channel id, from a number. -/
def ShortChannelId.raw : Raw CodecError ShortChannelId := ShortChannelId.mk <$> Raw.u64

/-- Short channel ids agree: `raw` with `decoder`. -/
theorem ShortChannelId.agrees (source : Bytes) :
    Agrees ShortChannelId.raw ShortChannelId.decoder source :=
  (agrees_u64 source).map ShortChannelId.mk

/-! ## Addresses -/

/-- The bytes after a descriptor: each part checks for itself that its bytes are there. -/
def NetAddress.rawPayload : AddressKind → Raw CodecError NetAddress
  | .ipv4 => do
      let host ← array 4
      let port ← Raw.u16
      return .ipv4 host port
  | .ipv6 => do
      let host ← array 16
      let port ← Raw.u16
      return .ipv6 host port
  | .onionV2 => do
      let service ← array 10
      let port ← Raw.u16
      return .onionV2 service port
  | .onionV3 => do
      let key ← array 32
      let checksum ← Raw.u16
      let version ← Raw.u8
      let port ← Raw.u16
      return .onionV3 key checksum version port

/-- What follows a descriptor agrees. -/
theorem NetAddress.agrees_payload (kind : AddressKind) (source : Bytes) :
    Agrees (rawPayload kind) (payloadDecoder kind) source := by
  cases kind with
  | ipv4 | ipv6 | onionV2 =>
      exact (agrees_array _ source).bind fun _ rest _ =>
        (agrees_u16 rest).bind fun _ rest _ => agrees_pure _ rest
  | onionV3 =>
      exact (agrees_array _ source).bind fun _ rest _ => (agrees_u16 rest).bind fun _ rest _ =>
        (agrees_u8 rest).bind fun _ rest _ => (agrees_u16 rest).bind fun _ rest _ =>
          agrees_pure _ rest

/-- What starts with an unknown descriptor can stand after the addresses. -/
theorem AddressList.unknown_start_cons {descriptor : UInt8} {rest : Bytes}
    (unknown : AddressKind.ofDescriptor? descriptor = none) :
    ∀ byte ∈ (descriptor :: rest).head?, AddressKind.ofDescriptor? byte = none := by
  rintro byte ⟨⟩
  exact unknown

/-- One turn of the loop over a block: it goes on with one more address, or ends where the block
does or an unknown descriptor comes. The addresses read so far come last one first. -/
def AddressList.rawTurn (done : List NetAddress) :
    Raw CodecError (List NetAddress ⊕ AddressList) := do
  match ← get with
  | descriptor :: rest =>
      match known : AddressKind.ofDescriptor? descriptor with
      | some kind =>
          advance 1
          ensure kind.payloadWidth
          let address ← NetAddress.rawPayload kind
          return .inl (address :: done)
      | none => return .inr ⟨done.reverse, descriptor :: rest, unknown_start_cons known⟩
  | [] => return .inr (ofAddresses done.reverse)

/-- An unknown `descriptor` ends the loop by `.inr`. -/
theorem AddressList.perform_rawTurn_of_unknown (done : List NetAddress) {descriptor : UInt8}
    {rest : Bytes} (unknown : AddressKind.ofDescriptor? descriptor = none) :
    (rawTurn done).perform (descriptor :: rest) =
      some (.ok (.inr ⟨done.reverse, descriptor :: rest, unknown_start_cons unknown⟩),
        descriptor :: rest) := by
  rw [rawTurn, perform_get_bind]
  dsimp only
  split
  · rename_i kind found
    rw [unknown] at found
    cases found
  · rfl

/-- A known `descriptor` is taken, and then the address. -/
theorem AddressList.perform_rawTurn_of_known (done : List NetAddress) {descriptor : UInt8}
    {rest : Bytes} {kind : AddressKind}
    (known : AddressKind.ofDescriptor? descriptor = some kind) :
    (rawTurn done).perform (descriptor :: rest) =
      (do
        ensure kind.payloadWidth
        let address ← NetAddress.rawPayload kind
        return .inl (address :: done) :
          Raw CodecError (List NetAddress ⊕ AddressList)).perform rest := by
  rw [rawTurn, perform_get_bind]
  dsimp only
  split
  · rename_i other found
    obtain rfl : kind = other := Option.some.inj (known.symm.trans found)
    exact perform_bind_of_ok _ (perform_advance (Nat.le_add_left 1 rest.length))
  · rename_i unknown
    rw [known] at unknown
    cases unknown

/-- There are address lists, such as the empty one. -/
instance AddressList.nonempty : Nonempty AddressList := ⟨ofAddresses []⟩

/-- Reads a block; `done` holds the addresses read so far, last one first. -/
def AddressList.rawBlock (done : List NetAddress) : Raw CodecError AddressList :=
  repeatM rawTurn done

/-- **The loop over a block ends, and gives what the decoder of the block gives**, `parseBlock done
block`. -/
theorem AddressList.perform_rawBlock (done : List NetAddress) (block : Bytes) :
    ∃ left, (rawBlock done).perform block = some (parseBlock done block, left) := by
  -- The decoder recurses on what follows an address, so that its cases are the turns of the loop.
  fun_induction parseBlock done block with
  | case1 done => exact ⟨[], perform_repeatM_of_end rfl⟩
  | case2 done descriptor rest unknown =>
      exact ⟨_, perform_repeatM_of_end (perform_rawTurn_of_unknown done unknown)⟩
  | case3 done descriptor rest kind known cause left short =>
      have lacks : rest.length < kind.payloadWidth := by
        by_contra enough
        rw [Decoder.take_of_le_length (Nat.le_of_not_lt enough)] at short
        cases short
      rw [Decoder.take_of_length_lt lacks] at short
      cases short
      refine ⟨rest, perform_repeatM_of_error ?_⟩
      rw [perform_rawTurn_of_known done known]
      exact perform_bind_of_error _ (perform_ensure_of_lt lacks)
  | case4 done descriptor rest kind known payload left taken cause left' failed =>
      -- A payload of the right width is always that of an address.
      obtain ⟨address, same, whole⟩ := AddressKind.length_eq_payloadWidth_iff.1 payload.2
      rw [NetAddress.decoderAfter_of_known known,
        (NetAddress.payloadDecoder_eq_ok_iff payload.2).2 ⟨same, whole, rfl⟩] at failed
      cases failed
  | case5 done descriptor rest kind known payload left taken address left' read ih =>
      rw [NetAddress.decoderAfter_of_known known] at read
      obtain ⟨rfl, whole, -⟩ := (NetAddress.payloadDecoder_eq_ok_iff payload.2).1 read
      obtain ⟨_, rfl, rfl⟩ := (Decoder.accepts_take _ _ _ _).1 taken
      have enough : address.kind.payloadWidth ≤ (payload.1 ++ left).length := by
        rw [List.length_append, payload.2]
        exact Nat.le_add_right _ _
      have agrees := NetAddress.agrees_payload address.kind (payload.1 ++ left)
      -- The loop reads the address from all that is left, the decoder from its payload alone. The
      -- address takes as many bytes as the table of widths says, so that both go on at one place.
      have run : NetAddress.payloadDecoder address.kind (payload.1 ++ left) = .ok address left :=
        (NetAddress.accepts_payloadDecoder address.kind).append ⟨rfl, whole⟩ left
      rw [Agrees, run] at agrees
      rw [List.drop_left' payload.2] at ih ⊢
      obtain ⟨after, looped⟩ := ih
      have turn : (rawTurn done).perform (descriptor :: (payload.1 ++ left)) =
          some (.ok (.inl (address :: done)), left) := by
        rw [perform_rawTurn_of_known done known, perform_bind_of_ok _ (perform_ensure_of_le enough),
          perform_bind_of_ok _ agrees]
        rfl
      refine ⟨after, ?_⟩
      rw [rawBlock, perform_repeatM_of_again turn]
      exact looped

/-- An address list: its block is read from a buffer of its own. -/
def AddressList.raw : Raw CodecError AddressList := do
  let block ← Raw.bytes
  within block (rawBlock [])

/-- Address lists agree. -/
theorem AddressList.agrees (source : Bytes) :
    Agrees AddressList.raw AddressList.decoder source := by
  refine (agrees_bytes source).bind fun block rest _ => ?_
  obtain ⟨left, run⟩ := perform_rawBlock [] block
  rw [Agrees, perform_within run]
  cases parseBlock [] block with
  | error cause => rfl
  | ok list => rfl

/-! ## Lists of ids -/

/-- The ids in a buffer of their own. -/
def IdList.rawRecords (content : Bytes) : Raw CodecError (List ShortChannelId) :=
  within content (records content.length ShortChannelId.width ShortChannelId.raw)

/-- The ids in a byte string are read from it alone, as by `parseRecords`. -/
theorem IdList.perform_rawRecords (content outer : Bytes) :
    (rawRecords content).perform outer = some (parseRecords content, outer) := by
  have agrees := agrees_records ShortChannelId.agrees content.length
    (show ShortChannelId.width ≠ 0 by decide) content
  rw [rawRecords, perform_within agrees, parseRecords]
  cases Decoder.records content.length ShortChannelId.width ShortChannelId.decoder content with
  | ok ids left => rfl
  | error cause left => rfl

/-- The ids written by a payload. What inflates it, `Zlib.decompress`, is not taken apart. -/
def IdList.rawPayload (encoding : IdEncoding) (payload : Bytes) :
    Raw CodecError (List ShortChannelId) :=
  match encoding with
  | .plain => rawRecords payload
  | .zlib =>
      if payload.isEmpty then return []
      else
        match Zlib.decompress inflateLimit payload with
        | .error fault => throw (.invalid (.compressedIds fault inflateLimit))
        | .ok content => rawRecords content.toList

/-- The ids of a payload are read from it alone, as by `parsePayload`. -/
theorem IdList.perform_rawPayload (encoding : IdEncoding) (payload outer : Bytes) :
    (rawPayload encoding payload).perform outer = some (parsePayload encoding payload, outer) := by
  cases encoding with
  | plain => exact perform_rawRecords payload outer
  | zlib =>
      rw [rawPayload, parsePayload]
      split
      · rfl
      · cases Zlib.decompress inflateLimit payload with
        | error fault => rfl
        | ok content => exact perform_rawRecords content.toList outer

/-- An id list. After the check for the whole length neither the encoding byte nor the payload is
checked for. -/
def IdList.raw : Raw CodecError IdList := do
  let length ← Raw.u16
  if length = 0 then throw (.invalid .missingIdEncoding)
  ensure length.toNat
  let byte ← UInt8.ofNat <$> getUint 1
  match IdEncoding.ofByte? byte with
  | none => throw (.invalid (.unknownIdEncoding byte))
  | some encoding =>
      let remaining ← sub length.toNat 1
      let payload ← copyToSlice remaining
      let ids ← rawPayload encoding payload.1
      return ⟨encoding, ids, payload.1⟩

/-- Lists of ids agree: the check for the whole length covers the encoding byte and the payload. -/
theorem IdList.agrees (source : Bytes) : Agrees IdList.raw IdList.decoder source := by
  refine (agrees_u16 source).bind fun length rest _ => ?_
  refine Agrees.ite (fun _ => agrees_throw _ rest) fun positive => ?_
  have one : 1 ≤ length.toNat :=
    Nat.one_le_iff_ne_zero.2 fun zero => positive (UInt16.toNat_inj.1 zero)
  refine (agrees_ensure length.toNat rest).bind fun _ content checked => ?_
  obtain ⟨enough, rfl⟩ := Decoder.ensure_eq_ok_iff.1 checked
  refine ((agrees_getUint (Nat.le_trans one enough)).map UInt8.ofNat).bind fun byte left taken => ?_
  cases IdEncoding.ofByte? byte with
  | none => exact agrees_throw _ left
  | some encoding =>
      obtain ⟨word, rfl, single, -⟩ := (Decoder.accepts_u8 _ byte left).1 taken
      have remaining : length.toNat - 1 ≤ left.length := by
        rw [List.length_append, single] at enough
        omega
      simp only [sub_eq_pure one, pure_bind]
      refine (agrees_copyToSlice remaining).bind fun payload after _ => ?_
      rw [Agrees, perform_bind, perform_rawPayload]
      cases parsePayload encoding payload.1 with
      | error cause => rfl
      | ok ids => rfl

/-! ## Types of fields -/

/-- A value of the type of a field. -/
def FieldType.raw : (type : FieldType) → Raw CodecError type.Value
  | .u8 => Raw.u8
  | .u16 => Raw.u16
  | .u32 => Raw.u32
  | .u64 => Raw.u64
  | .flag => Raw.flag
  | .milliSatoshi => MilliSatoshi.mk <$> Raw.u64
  | .satoshi => Satoshi.mk <$> Raw.u64
  | .feeRate => FeeRate.mk <$> Raw.u32
  | .blob _ => Blob.raw
  | .bytes => Raw.bytes
  | .features => FeatureVector.ofBytes <$> Raw.bytes
  | .signatures => counted BlobKind.signature.width Blob.raw
  | .shortChannelId => ShortChannelId.raw
  | .addresses => AddressList.raw
  | .idList => IdList.raw

/-- **The reader of every type of field agrees with its decoder**: `type.raw` with
`type.decoder`. -/
theorem FieldType.agrees (type : FieldType) (source : Bytes) :
    Agrees type.raw type.decoder source := by
  cases type with
  | u8 => exact agrees_u8 source
  | u16 => exact agrees_u16 source
  | u32 => exact agrees_u32 source
  | u64 => exact agrees_u64 source
  | flag => exact agrees_flag source
  | milliSatoshi => exact (agrees_u64 source).map _
  | satoshi => exact (agrees_u64 source).map _
  | feeRate => exact (agrees_u32 source).map _
  | blob kind => exact Blob.agrees kind source
  | bytes => exact agrees_bytes source
  | features => exact (agrees_bytes source).map _
  | signatures => exact agrees_counted (Blob.agrees .signature) (by decide) source
  | shortChannelId => exact ShortChannelId.agrees source
  | addresses => exact AddressList.agrees source
  | idList => exact IdList.agrees source

end PeerWire
