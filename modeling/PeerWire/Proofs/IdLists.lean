import PeerWire.Proofs.RoundTrip

/-! # Lists of short channel ids and their payloads

A list keeps its ids twice, as ids and as the payload that writes them. However a list is come by,
the two are *consistent* (`IdList.Built.consistent`): a compressed payload need not be the one that
compressing the ids again would make, but it always gives them. A list that is read is written back
as it came, and one that cannot be read is *refused* for the first thing that is wrong with it, in
the order in which `IdList.Refused` says them (`IdList.decoder_error_iff_refused`). -/

namespace PeerWire

open Decoder

/-! ## Payloads that cannot be inflated -/

/-- No complete stream whose content keeps the limit stands in front: what stands there is corrupt,
or ends too early, or gives too many bytes. -/
def Zlib.Barred (limit : Nat) (payload : Bytes) : Prop :=
  ∀ stream junk content, payload = stream ++ junk → Holds stream content → limit < content.length

/-- Decompressing fails where no stream within the limit stands in front: `Barred limit payload`. -/
theorem Zlib.exists_fault_iff_barred {limit : Nat} {payload : Bytes} :
    (∃ fault, decompress limit payload = .error fault) ↔ Barred limit payload := by
  constructor
  · rintro ⟨fault, failed⟩ stream junk content whole held
    by_contra keeps
    have small : content.length ≤ limit := Nat.le_of_not_lt keeps
    have run : decompress limit payload = .ok ⟨content.toArray⟩ :=
      decompress_eq_ok_iff.2 ⟨small, stream, junk, whole, held⟩
    rw [failed] at run
    cases run
  · intro barred
    cases run : decompress limit payload with
    | error fault => exact ⟨fault, rfl⟩
    | ok out =>
        obtain ⟨small, stream, junk, whole, held⟩ := decompress_eq_ok_iff.1 run
        have many : limit < out.data.toList.length := barred stream junk _ whole held
        exact absurd small (Nat.not_le_of_lt many)

namespace IdList

variable {size part payload rest source : Bytes} {count : Nat}

/-! ## Consistency -/

/-- The payload writes the ids. A plain payload is `concat list.ids`. A compressed one is empty, and
so are the ids, or it starts with a complete stream that gives them. -/
def Consistent (list : IdList) : Prop :=
  match list.encoding with
  | .plain => list.payload = concat list.ids
  | .zlib => (list.payload = [] ∧ list.ids = []) ∨
      ∃ stream junk, list.payload = stream ++ junk ∧ Zlib.Holds stream (concat list.ids)

/-- What a payload denotes is consistent with it. -/
theorem consistent_of_denotes {list : IdList}
    (denoted : list.encoding.Denotes list.payload list.ids) : list.Consistent := by
  obtain ⟨encoding, ids, payload⟩ := list
  cases encoding with
  | plain => exact spellsIds_iff.1 denoted
  | zlib =>
      rcases denoted with none | ⟨stream, junk, content, whole, held, -, spelled⟩
      · exact .inl none
      · rw [spellsIds_iff.1 spelled] at held
        exact .inr ⟨stream, junk, whole, held⟩

/-- **Ids and payload are consistent, however a list is come by**: `list.Consistent`. -/
theorem Built.consistent {compress : Bytes → Bytes} (faithful : Zlib.Faithful compress)
    {list : IdList} (built : list.Built compress) : list.Consistent := by
  cases built with
  | plain ids => exact rfl
  | zlib ids =>
      -- There may be too many ids to read the list back, but there is a limit that admits them.
      obtain ⟨-, stream, junk, whole, held⟩ :=
        Zlib.decompress_eq_ok_iff.1 (faithful (concat ids) _ (Nat.le_refl _))
      exact .inr ⟨stream, junk, whole, held⟩
  | decoded run =>
      obtain ⟨word, -, -, denoted⟩ := (accepts _ _ _).1 run
      exact consistent_of_denotes denoted

/-! ## Lists that are read -/

/-- A list that is read is written back as it came, `size ++ body`, and the length in front says
where it ends. -/
theorem encode_of_decoder {list : IdList} (run : decoder source = .ok list rest) :
    ∃ size body, source = size ++ (body ++ rest) ∧ Spells 2 size body.length ∧
      list.encode = size ++ body := by
  obtain ⟨word, rfl, headed, denoted⟩ := (accepts _ _ _).1 run
  have same : list.encode = word := @FieldType.encode_of_denotes .idList _ _ ⟨headed, denoted⟩
  obtain ⟨size, spelled, rfl⟩ := headed
  refine ⟨size, list.encoding.toByte :: list.payload, List.append_assoc _ _ _, ?_, same⟩
  rw [List.length_cons, Nat.add_comm]
  exact spelled

/-- A list that is read has at most as many ids as the limit has room for, `inflateLimit / 8`,
compressed or not. -/
theorem length_ids_le_of_decoder {list : IdList} (run : decoder source = .ok list rest) :
    list.ids.length ≤ inflateLimit / 8 := by
  obtain ⟨word, -, headed, denoted⟩ := (accepts _ _ _).1 run
  obtain ⟨short, inflatable⟩ := @FieldType.inRange_of_denotes .idList _ list ⟨headed, denoted⟩
  have limit : inflateLimit = 67413630 := rfl
  cases encoding : list.encoding with
  | zlib =>
      have keeps : 8 * list.ids.length ≤ inflateLimit := inflatable encoding
      omega
  | plain =>
      -- A plain payload is as long as its ids, and its length has two bytes.
      rw [encoding] at denoted
      have wide : list.payload.length = list.ids.length * 8 := by
        rw [spellsIds_iff.1 denoted, length_concat]
      omega

/-! ## Payloads that are refused -/

/-- A run of records is refused for its length only: `¬8 ∣ content.length`. -/
theorem parseRecords_eq_error_iff {content : Bytes} {cause : CodecError} :
    parseRecords content = .error cause ↔
      ¬8 ∣ content.length ∧ cause = .misaligned content.length 8 := by
  by_cases even : 8 ∣ content.length
  · obtain ⟨ids, spelled⟩ := dvd_length_iff_spellsIds.1 even
    rw [parseRecords_eq_ok_iff.2 spelled]
    simp [even]
  · have failed : records content.length ShortChannelId.width ShortChannelId.decoder content =
        .error (.misaligned content.length 8) content := records_of_not_dvd even
    rw [parseRecords, failed]
    simp [even, eq_comm]

/-- The payloads that are refused, and why. -/
inductive PayloadRefused : IdEncoding → Bytes → CodecError → Prop where
  /-- A plain payload ends within an id. -/
  | plain {payload : Bytes} :
      ¬8 ∣ payload.length → PayloadRefused .plain payload (.misaligned payload.length 8)
  /-- A compressed payload cannot be inflated; `fault` says where it stopped. -/
  | stream {payload : Bytes} {fault : Deflate.Fault} :
      payload ≠ [] → Zlib.Barred inflateLimit payload →
      Zlib.decompress inflateLimit payload = .error fault →
      PayloadRefused .zlib payload (.invalid (.compressedIds fault inflateLimit))
  /-- A compressed payload ends within an id when it is inflated. -/
  | content {stream junk content : Bytes} :
      Zlib.Holds stream content → content.length ≤ inflateLimit → ¬8 ∣ content.length →
      PayloadRefused .zlib (stream ++ junk) (.misaligned content.length 8)

/-- A complete stream has bytes. -/
theorem ne_nil_of_holds {stream junk content : Bytes} (held : Zlib.Holds stream content) :
    stream ++ junk ≠ [] := by
  obtain ⟨first, second, deflated, sum, rfl, -⟩ := held
  exact List.cons_ne_nil _ _

/-- **What is refused of a payload**, by the cases of `PayloadRefused`. -/
theorem parsePayload_eq_error_iff {encoding : IdEncoding} {cause : CodecError} :
    parsePayload encoding payload = .error cause ↔ PayloadRefused encoding payload cause := by
  cases encoding with
  | plain =>
      show parseRecords payload = .error cause ↔ _
      rw [parseRecords_eq_error_iff]
      constructor
      · rintro ⟨uneven, rfl⟩
        exact .plain uneven
      · intro refused
        cases refused with
        | plain uneven => exact ⟨uneven, rfl⟩
  | zlib =>
      constructor
      · intro failed
        rw [parsePayload] at failed
        split at failed
        · cases failed
        · rename_i some
          have present : payload ≠ [] := by simpa using some
          split at failed
          · rename_i fault stopped
            cases failed
            exact .stream present (Zlib.exists_fault_iff_barred.1 ⟨fault, stopped⟩) stopped
          · rename_i out inflated
            obtain ⟨small, stream, junk, rfl, held⟩ := Zlib.decompress_eq_ok_iff.1 inflated
            rw [Zlib.toList_eq_data_toList] at failed
            obtain ⟨uneven, rfl⟩ := parseRecords_eq_error_iff.1 failed
            exact .content held small uneven
      · intro refused
        cases refused with
        | stream present _ stopped =>
            have some : ¬payload.isEmpty = true := by simpa using present
            rw [parsePayload, if_neg some, stopped]
        | @content stream junk content held small uneven =>
            have some : ¬(stream ++ junk).isEmpty = true := by
              simpa using ne_nil_of_holds held
            have inflated : Zlib.decompress inflateLimit (stream ++ junk) =
                .ok ⟨content.toArray⟩ :=
              Zlib.decompress_eq_ok_iff.2 ⟨small, stream, junk, rfl, held⟩
            rw [parsePayload, if_neg some, inflated]
            show parseRecords (ByteArray.mk content.toArray).toList = _
            rw [Zlib.toList_eq_data_toList]
            exact parseRecords_eq_error_iff.2 ⟨uneven, rfl⟩

/-! ## Lists that are refused -/

/-- The byte strings that do not start with a list, and what is said about them. Each case leaves
out what the cases before it say. -/
inductive Refused : Bytes → CodecError → Prop where
  /-- The length is cut short. -/
  | size {source : Bytes} : source.length < 2 → Refused source (.truncated 2 source.length)
  /-- The length leaves no room for the encoding byte. -/
  | missing {size part : Bytes} :
      Spells 2 size 0 → Refused (size ++ part) (.invalid .missingIdEncoding)
  /-- Fewer bytes follow than the length says. -/
  | truncated {size part : Bytes} {count : Nat} :
      Spells 2 size count → part.length < count →
      Refused (size ++ part) (.truncated count part.length)
  /-- The first of them is neither 0 nor 1. -/
  | encoding {size payload rest : Bytes} {byte : UInt8} :
      Spells 2 size (1 + payload.length) → byte ≠ 0 → byte ≠ 1 →
      Refused (size ++ byte :: (payload ++ rest)) (.invalid (.unknownIdEncoding byte))
  /-- The others are no payload of the encoding. -/
  | payload {size payload rest : Bytes} {encoding : IdEncoding} {cause : CodecError} :
      Spells 2 size (1 + payload.length) → PayloadRefused encoding payload cause →
      Refused (size ++ encoding.toByte :: (payload ++ rest)) cause

/-- The bytes that name no encoding: all but `0` and `1`. -/
theorem ofByte?_eq_none_iff {byte : UInt8} :
    IdEncoding.ofByte? byte = none ↔ byte ≠ 0 ∧ byte ≠ 1 := by
  constructor
  · intro foreign
    refine ⟨?_, ?_⟩
    · rintro rfl
      cases foreign
    · rintro rfl
      cases foreign
  · rintro ⟨plain, zlib⟩
    cases found : IdEncoding.ofByte? byte with
    | none => rfl
    | some encoding =>
        obtain rfl := IdEncoding.ofByte?_eq_some_iff.1 found
        cases encoding with
        | plain => exact absurd rfl plain
        | zlib => exact absurd rfl zlib

/-- A list that says it has no encoding byte. -/
theorem decoder_of_missing (spelled : Spells 2 size 0) :
    decoder (size ++ part) = .error (.invalid .missingIdEncoding) part := by
  have run : u16 (size ++ part) = .ok 0 part := accepts_u16.append spelled part
  rw [decoder, bind_of_ok run]
  rfl

/-- The length of a list as it is read. -/
theorem u16_append_of_spells (spelled : Spells 2 size count) (part : Bytes) :
    ∃ length : UInt16, u16 (size ++ part) = .ok length part ∧ length.toNat = count := by
  have fits : (UInt16.ofNat count).toNat = count :=
    UInt16.toNat_ofNat_of_lt' (spells_iff.1 spelled).2
  refine ⟨UInt16.ofNat count, accepts_u16.append ?_ part, fits⟩
  rw [fits]
  exact spelled

/-- A list with fewer bytes than its length says is refused as `truncated count part.length`. -/
theorem decoder_of_short (spelled : Spells 2 size count) (short : part.length < count) :
    decoder (size ++ part) = .error (.truncated count part.length) part := by
  obtain ⟨length, run, rfl⟩ := u16_append_of_spells spelled part
  have positive : length ≠ 0 := by
    rintro rfl
    exact Nat.not_lt_zero _ short
  rw [decoder, bind_of_ok run, if_neg positive]
  exact bind_of_error (ensure_of_length_lt short)

/-- A list with all of its bytes, `size ++ byte :: (payload ++ rest)`, is read from the first of
them and the payload after it. -/
theorem decoder_of_whole {byte : UInt8} (spelled : Spells 2 size (1 + payload.length)) :
    decoder (size ++ byte :: (payload ++ rest)) =
      match IdEncoding.ofByte? byte with
      | none => .error (.invalid (.unknownIdEncoding byte)) (payload ++ rest)
      | some encoding =>
          match parsePayload encoding payload with
          | .error cause => .error cause rest
          | .ok ids => .ok ⟨encoding, ids, payload⟩ rest := by
  obtain ⟨length, run, wide⟩ := u16_append_of_spells spelled (byte :: (payload ++ rest))
  have positive : length ≠ 0 := by
    rintro rfl
    have none : 0 = 1 + payload.length := wide
    omega
  have whole : length.toNat ≤ (byte :: (payload ++ rest)).length := by
    rw [wide, List.length_cons, List.length_append]
    omega
  have checked : ensure length.toNat (byte :: (payload ++ rest)) = .ok () _ :=
    ensure_eq_ok_iff.2 ⟨whole, rfl⟩
  have first : u8 (byte :: (payload ++ rest)) = .ok byte (payload ++ rest) :=
    accepts_u8.append (spells_one.2 rfl) _
  have remaining : payload.length = length.toNat - 1 := by omega
  have taken : take (length.toNat - 1) (payload ++ rest) = .ok ⟨payload, remaining⟩ rest :=
    take_append ⟨payload, remaining⟩ rest
  rw [decoder, bind_of_ok run, if_neg positive]
  show (ensure length.toNat >>= _) _ = _
  rw [bind_of_ok checked, bind_of_ok first]
  cases IdEncoding.ofByte? byte with
  | none => rfl
  | some encoding =>
      show (take (length.toNat - 1) >>= _) _ = _
      rw [bind_of_ok taken]
      dsimp only
      cases parsePayload encoding payload with
      | error cause => rfl
      | ok ids => rfl

/-- **A list is refused for the first thing that is wrong with it**, by the cases of `Refused`. -/
theorem decoder_error_iff_refused {cause : CodecError} :
    (∃ left, decoder source = .error cause left) ↔ Refused source cause := by
  constructor
  · rintro ⟨left, failed⟩
    rcases u16_cases source with ⟨short, run⟩ | ⟨size, part, length, rfl, spelled, -⟩
    · rw [decoder, bind_of_error run] at failed
      cases failed
      exact .size short
    by_cases zero : length.toNat = 0
    · rw [zero] at spelled
      rw [decoder_of_missing spelled] at failed
      cases failed
      exact .missing spelled
    by_cases short : part.length < length.toNat
    · rw [decoder_of_short spelled short] at failed
      cases failed
      exact .truncated spelled short
    -- All bytes are there: the encoding byte, the payload, and what comes after the list.
    obtain ⟨byte, payload, rest, rfl, total⟩ : ∃ byte payload rest,
        part = byte :: (payload ++ rest) ∧ length.toNat = 1 + payload.length := by
      cases part with
      | nil => exact absurd (Nat.pos_of_ne_zero zero) short
      | cons byte part =>
          have enough : length.toNat - 1 ≤ part.length := by
            rw [List.length_cons] at short
            omega
          refine ⟨byte, part.take (length.toNat - 1), part.drop (length.toNat - 1), ?_, ?_⟩
          · rw [List.take_append_drop]
          · rw [List.length_take_of_le enough]
            omega
    rw [total] at spelled
    rw [decoder_of_whole spelled] at failed
    cases found : IdEncoding.ofByte? byte with
    | none =>
        rw [found] at failed
        cases failed
        obtain ⟨plain, zlib⟩ := ofByte?_eq_none_iff.1 found
        exact .encoding spelled plain zlib
    | some encoding =>
        obtain rfl := IdEncoding.ofByte?_eq_some_iff.1 found
        rw [found] at failed
        dsimp only at failed
        cases parsed : parsePayload encoding payload with
        | ok ids =>
            rw [parsed] at failed
            cases failed
        | error cause' =>
            rw [parsed] at failed
            cases failed
            exact .payload spelled (parsePayload_eq_error_iff.1 parsed)
  · intro refused
    cases refused with
    | size short =>
        rcases u16_cases source with ⟨-, run⟩ | ⟨size, part, length, rfl, spelled, -⟩
        · exact ⟨source, bind_of_error run⟩
        · rw [List.length_append, spelled.1] at short
          exact absurd short (Nat.not_lt.2 (Nat.le_add_right 2 part.length))
    | missing spelled => exact ⟨_, decoder_of_missing spelled⟩
    | truncated spelled short => exact ⟨_, decoder_of_short spelled short⟩
    | @encoding size payload rest byte spelled plain zlib =>
        refine ⟨payload ++ rest, ?_⟩
        rw [decoder_of_whole spelled, ofByte?_eq_none_iff.2 ⟨plain, zlib⟩]
    | @payload size payload rest encoding cause spelled bad =>
        refine ⟨rest, ?_⟩
        rw [decoder_of_whole spelled, IdEncoding.ofByte?_eq_some_iff.2 rfl]
        dsimp only
        rw [parsePayload_eq_error_iff.2 bad]

/-- **Ids and payload say the same, and what cannot be read is refused in a fixed order**: a list
that is `Built` is `Consistent`, and one that is not read is `Refused`. -/
theorem consistent_and_refused {compress : Bytes → Bytes} (faithful : Zlib.Faithful compress) :
    (∀ list : IdList, list.Built compress → list.Consistent) ∧
    empty.Built compress ∧
    (∀ source list rest, decoder source = .ok list rest →
      (∃ size body, source = size ++ (body ++ rest) ∧ Spells 2 size body.length ∧
        list.encode = size ++ body) ∧
      list.ids.length ≤ inflateLimit / 8) ∧
    (∀ source cause, (∃ left, decoder source = .error cause left) ↔ Refused source cause) ∧
    ∀ payload, Zlib.Barred inflateLimit payload →
      ∃ fault, Zlib.decompress inflateLimit payload = .error fault := by
  refine ⟨fun list built => built.consistent faithful, .plain [], ?_, ?_, ?_⟩
  · intro source list rest run
    exact ⟨encode_of_decoder run, length_ids_le_of_decoder run⟩
  · intro source cause
    exact decoder_error_iff_refused
  · intro payload barred
    exact Zlib.exists_fault_iff_barred.2 barred

/-- The default list, two lists of one id, and a list that was compressed elsewhere and is followed
by a byte that is not its own. -/
theorem consistent_and_refused_one_id :
    Zlib.Faithful Zlib.compress ∧ empty.Consistent ∧ (plain [⟨42⟩]).Consistent ∧
      (zlib [⟨42⟩]).Consistent ∧
      ∃ list left, decoder [0, 1, 1, 9] = .ok list left ∧ list.Consistent ∧
        list.ids.length ≤ inflateLimit / 8 := by
  obtain ⟨consistent, empty, read, -⟩ := consistent_and_refused Zlib.faithful_compress
  have run : decoder [0, 1, 1, 9] = .ok ⟨.zlib, [], []⟩ [9] := rfl
  refine ⟨Zlib.faithful_compress, consistent _ empty, consistent _ (.plain _),
    consistent _ (.zlib _), _, _, run, consistent _ (.decoded run), (read _ _ _ run).2⟩

end IdList

end PeerWire
