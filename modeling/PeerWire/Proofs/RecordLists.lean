import PeerWire.Proofs.Agreement

/-! # Lists of records

Records of one width stand one after the other, behind their number or in a given number of bytes.
Whether they are all there is checked once, before the first of them is read. A list is therefore
read whole or not at all (`FixedWidth.counted_cases`, `FixedWidth.records_error_iff`), and what a
record would make of too few bytes is never asked (`FixedWidth.checked_congr`). The number is
written modulo 65536: of a longer list as many records are read back as it says, and the others are
left where they stand (`FixedWidth.counted_append`). -/

namespace PeerWire

namespace Decoder

/-- Records of one width: they are read wherever their bytes are left, take these and no others, and
reading and writing are inverse to each other. -/
structure FixedWidth {α : Type} (item : Decoder α) (form : α → Bytes) (width : Nat) : Prop where
  /-- A record has bytes. -/
  positive : 0 < width
  /-- A record is read exactly where the bytes of one are left. -/
  exists_ok_iff (source : Bytes) :
    (∃ value rest, item source = .ok value rest) ↔ width ≤ source.length
  /-- These bytes are taken. -/
  rest_eq {source rest : Bytes} {value : α} :
    item source = .ok value rest → rest = source.drop width
  /-- What is written is read back. -/
  read_form (value : α) (rest : Bytes) : item (form value ++ rest) = .ok value rest
  /-- What is read is written back. -/
  form_eq {source rest : Bytes} {value : α} :
    item source = .ok value rest → form value = source.take width

namespace FixedWidth

variable {α : Type} {item other : Decoder α} {raw : Raw CodecError α} {form : α → Bytes}
  {width count length : Nat} {source : Bytes}

/-! ## Records of one width -/

/-- A decoder of words of one length has fixed width if it reads whatever is long enough. -/
theorem of_accepts (accepts : item.Accepts fun word value => word = form value)
    (even : ∀ value, (form value).length = width) (positive : 0 < width)
    (total : ∀ source : Bytes, width ≤ source.length → ∃ value rest, item source = .ok value rest) :
    FixedWidth item form width where
  positive := positive
  exists_ok_iff source := by
    refine ⟨?_, total source⟩
    rintro ⟨value, rest, run⟩
    obtain ⟨_, rfl, rfl⟩ := (accepts _ _ _).1 run
    rw [List.length_append, even]
    exact Nat.le_add_right width _
  rest_eq {source rest value} run := by
    obtain ⟨_, rfl, rfl⟩ := (accepts _ _ _).1 run
    exact (List.drop_left' (even value)).symm
  read_form value rest := accepts.append rfl rest
  form_eq {source rest value} run := by
    obtain ⟨_, rfl, rfl⟩ := (accepts _ _ _).1 run
    exact (List.take_left' (even value)).symm

/-- Blobs are records of the width of their kind. -/
theorem blob (kind : BlobKind) :
    FixedWidth (Blob.decoder : Decoder (Blob kind)) Blob.bytes kind.width :=
  of_accepts (Blob.accepts kind) Blob.length_bytes (by cases kind <;> decide)
    fun _ enough => ⟨_, _, map_eq_ok_iff.2 ⟨_, take_of_le_length enough, rfl⟩⟩

/-- Short channel ids are records of eight bytes. -/
theorem shortChannelId :
    FixedWidth ShortChannelId.decoder ShortChannelId.encode ShortChannelId.width := by
  refine of_accepts (ShortChannelId.accepts.congr fun _ _ => ShortChannelId.spells_iff)
    (fun _ => length_bigEndian _ _) (by decide) fun source enough => ?_
  have packed : u64 source = .ok (UInt64.ofNat (ofBigEndian (source.take 8))) (source.drop 8) :=
    map_eq_ok_iff.2 ⟨_, number_of_le_length enough, rfl⟩
  exact ⟨_, _, map_eq_ok_iff.2 ⟨_, packed, rfl⟩⟩

section Laws

variable (fixed : FixedWidth item form width)

include fixed

/-! ## Single records -/

/-- The words of records are what writing them gives. -/
theorem accepts : item.Accepts fun word value => word = form value := by
  intro source value rest
  constructor
  · intro run
    refine ⟨source.take width, ?_, (fixed.form_eq run).symm⟩
    rw [fixed.rest_eq run, List.take_append_drop]
  · rintro ⟨_, rfl, rfl⟩
    exact fixed.read_form value rest

/-- Every record is written in as many bytes: `(form value).length = width`. -/
theorem length_form (value : α) : (form value).length = width := by
  -- That it is read says that there are enough bytes, and what is left that there are no more.
  have run := fixed.read_form value []
  have enough := (fixed.exists_ok_iff _).1 ⟨value, [], run⟩
  have all := List.drop_eq_nil_iff.1 (fixed.rest_eq run).symm
  rw [List.append_nil] at enough all
  exact Nat.le_antisymm all enough

/-- A record is read off enough bytes, and `source.drop width` is left. -/
theorem read_of_le (enough : width ≤ source.length) :
    ∃ value, form value = source.take width ∧ item source = .ok value (source.drop width) := by
  obtain ⟨value, rest, run⟩ := (fixed.exists_ok_iff source).2 enough
  obtain rfl := fixed.rest_eq run
  exact ⟨value, fixed.form_eq run, run⟩

/-- Whatever is as long as `count` records is made of so many records. -/
theorem exists_values (word : Bytes) (wide : word.length = count * width) :
    ∃ values : List α, values.length = count ∧ values.flatMap form = word := by
  -- By the number of records: reading the first one takes off the bytes of one.
  induction count generalizing word with
  | zero =>
      rw [Nat.zero_mul] at wide
      exact ⟨[], rfl, (List.length_eq_zero_iff.1 wide).symm⟩
  | succ count ih =>
      rw [Nat.succ_mul] at wide
      have enough : width ≤ word.length := by omega
      obtain ⟨value, front, -⟩ := fixed.read_of_le enough
      have fewer : (word.drop width).length = count * width := by
        rw [List.length_drop]
        omega
      obtain ⟨values, number, back⟩ := ih (word.drop width) fewer
      refine ⟨value :: values, congrArg Nat.succ number, ?_⟩
      rw [List.flatMap_cons, front, back, List.take_append_drop]

/-! ## Records behind their number -/

/-- The records that the number in front speaks of are read, and the others are left. -/
theorem counted_take {kept others : List α} (said : kept.length = (kept ++ others).length % 65536)
    (tail : Bytes) :
    counted width item (Wire.counted form (kept ++ others) ++ tail) =
      .ok kept (others.flatMap form ++ tail) := by
  -- The number of all records and that of the kept ones are written alike.
  have headed : Headed kept.length (kept.flatMap form)
      (Wire.length (kept ++ others).length ++ kept.flatMap form) := by
    rw [headed_iff, said]
    refine ⟨congrArg (· ++ kept.flatMap form) ?_, Nat.mod_lt _ (by decide)⟩
    exact (bigEndian_mod 2 _).symm
  have parts : Wire.counted form (kept ++ others) ++ tail =
      (Wire.length (kept ++ others).length ++ kept.flatMap form) ++
        (others.flatMap form ++ tail) := by
    simp only [Wire.counted, List.flatMap_append, List.append_assoc]
  rw [parts]
  exact (accepts_counted fixed.accepts fixed.length_form).append headed _

/-- **What is read back of a list**, however long it is: `items.take (items.length % 65536)`. -/
theorem counted_append (items : List α) (tail : Bytes) :
    counted width item (Wire.counted form items ++ tail) =
      .ok (items.take (items.length % 65536))
        ((items.drop (items.length % 65536)).flatMap form ++ tail) := by
  have said : (items.take (items.length % 65536)).length =
      (items.take (items.length % 65536) ++ items.drop (items.length % 65536)).length % 65536 := by
    rw [List.take_append_drop, List.length_take_of_le (Nat.mod_le _ _)]
  have run := fixed.counted_take said tail
  rwa [List.take_append_drop] at run

/-- **Counted records are read all or none**: the number is cut short, or the records together are,
with fewer than `count * width` bytes, or they are all there. -/
theorem counted_cases (source : Bytes) :
    (source.length < 2 ∧
      counted width item source = .error (.truncated 2 source.length) source) ∨
    ∃ size part count, source = size ++ part ∧ Spells 2 size count ∧
      ((part.length < count * width ∧
          counted width item source = .error (.truncated (count * width) part.length) part) ∨
        ∃ values rest, part = values.flatMap form ++ rest ∧ values.length = count ∧
          (values.flatMap form).length = count * width ∧
          counted width item source = .ok values rest) := by
  rcases u16_cases source with ⟨short, failed⟩ | ⟨size, part, count, rfl, spelled, run⟩
  · exact .inl ⟨short, bind_of_error failed⟩
  refine .inr ⟨size, part, count.toNat, rfl, spelled, ?_⟩
  rcases Nat.lt_or_ge part.length (count.toNat * width) with short | enough
  · refine .inl ⟨short, ?_⟩
    rw [counted, bind_of_ok run, bind_of_error (ensure_of_length_lt short)]
  · -- That there are records to read is known from the bytes before any of them is read.
    have wide := List.length_take_of_le enough
    obtain ⟨values, number, whole⟩ := fixed.exists_values _ wide
    have parts : part = values.flatMap form ++ part.drop (count.toNat * width) := by
      rw [whole, List.take_append_drop]
    refine .inr ⟨values, part.drop (count.toNat * width), parts, number, by rw [whole, wide], ?_⟩
    rw [← number] at spelled
    have read := (accepts_counted fixed.accepts fixed.length_form).append
      ⟨size, spelled, rfl⟩ (part.drop (count.toNat * width))
    rwa [List.append_assoc, ← parts] at read

omit fixed in
/-- Two records of four bytes do not fit in five, and the first of them is not taken either. -/
example : counted 4 (take 4) [0, 2, 1, 2, 3, 4, 5] = .error (.truncated 8 5) [1, 2, 3, 4, 5] := rfl

/-! ## Records in so many bytes -/

/-- Whole records that are all there are read: `length / width` of them. -/
theorem records_of_le_length (divides : width ∣ length) (enough : length ≤ source.length) :
    ∃ values : List α, values.length = length / width ∧ values.flatMap form = source.take length ∧
      records length width item source = .ok values (source.drop length) := by
  have wide := List.length_take_of_le enough
  have total : (source.take length).length = length / width * width := by
    rw [wide, Nat.div_mul_cancel divides]
  obtain ⟨values, number, spelled⟩ := fixed.exists_values _ total
  have read := (accepts_records fixed.accepts fixed.length_form fixed.positive length).append
    ⟨wide, spelled.symm⟩ (source.drop length)
  rw [List.take_append_drop] at read
  exact ⟨values, number, spelled, read⟩

/-- **Records in a number of bytes are read all or none**: they are refused if `¬width ∣ length`, or
else if `source.length < length`, and nothing is taken then. -/
theorem records_error_iff {cause : CodecError} {left : Bytes} :
    records length width item source = .error cause left ↔
      left = source ∧
        ((¬width ∣ length ∧ cause = .misaligned length width) ∨
          (width ∣ length ∧ source.length < length ∧
            cause = .truncated length source.length)) := by
  by_cases divides : width ∣ length
  · rcases Nat.lt_or_ge source.length length with short | enough
    · rw [records_of_length_lt divides short, EStateM.Result.error.injEq]
      simp [divides, short, and_comm, eq_comm]
    · obtain ⟨values, -, -, read⟩ := fixed.records_of_le_length divides enough
      rw [read]
      simp [divides, Nat.not_lt.2 enough]
  · rw [records_of_not_dvd divides, EStateM.Result.error.injEq]
    simp [divides, and_comm, eq_comm]

/-! ## The check in front -/

/-- Records that are read alike off enough bytes are read alike where the bytes of all are left. -/
theorem repeatItem_congr
    (same : ∀ source : Bytes, width ≤ source.length → other source = item source)
    (done : List α) (enough : count * width ≤ source.length) :
    repeatItem other count done source = repeatItem item count done source := by
  induction count generalizing done source with
  | zero => rfl
  | succ count ih =>
      rw [Nat.succ_mul] at enough
      have first : width ≤ source.length := by omega
      have later : count * width ≤ (source.drop width).length := by
        rw [List.length_drop]
        omega
      -- What the first one leaves is enough for the others, since it takes no more than its width.
      obtain ⟨value, -, run⟩ := fixed.read_of_le first
      have run' := (same source first).trans run
      show (other >>= _) source = (item >>= _) source
      rw [bind_of_ok run, bind_of_ok run']
      exact ih _ later

/-- **Behind the check no record is tried on fewer bytes than it has**: `other` may stand for `item`
there. -/
theorem checked_congr
    (same : ∀ source : Bytes, width ≤ source.length → other source = item source) (count : Nat) :
    (ensure (count * width) >>= fun _ => repeatItem other count []) =
      ensure (count * width) >>= fun _ => repeatItem item count [] := by
  funext source
  rcases Nat.lt_or_ge source.length (count * width) with short | enough
  · rw [bind_of_error (ensure_of_length_lt short), bind_of_error (ensure_of_length_lt short)]
  · have checked : ensure (count * width) source = .ok () source :=
      ensure_eq_ok_iff.2 ⟨enough, rfl⟩
    rw [bind_of_ok checked, bind_of_ok checked]
    exact fixed.repeatItem_congr same [] enough

/-- Nor is one of counted records: `counted width other = counted width item`. -/
theorem counted_congr
    (same : ∀ source : Bytes, width ≤ source.length → other source = item source) :
    counted width other = counted width item :=
  congrArg (u16 >>= ·) (funext fun count => fixed.checked_congr same count.toNat)

/-- Nor is one of the records in a number of bytes: `records length width other = records length
width item`. -/
theorem records_congr
    (same : ∀ source : Bytes, width ≤ source.length → other source = item source) (length : Nat) :
    records length width other = records length width item := by
  unfold records
  split
  · rfl
  · rename_i whole
    have behind := fixed.checked_congr same (length / width)
    rwa [Nat.div_mul_cancel (Nat.dvd_of_mod_eq_zero (Decidable.not_not.1 whole))] at behind

/-! ## Records without a check of their own -/

/-- Records need only be defined off enough bytes where the bytes of all, `count * width`, are
left. -/
theorem agrees_repeatItem
    (agrees : ∀ source : Bytes, width ≤ source.length → raw.Agrees item source)
    (done : List α) (enough : count * width ≤ source.length) :
    (Raw.repeatItem raw count done).Agrees (repeatItem item count done) source := by
  induction count generalizing done source with
  | zero => exact Raw.agrees_pure _ source
  | succ count ih =>
      rw [Nat.succ_mul] at enough
      refine (agrees source (by omega)).bind fun value rest read => ih (value :: done) ?_
      rw [fixed.rest_eq read, List.length_drop]
      omega

/-- Behind the check they need no more than that, however many bytes are left. -/
theorem agrees_checked
    (agrees : ∀ source : Bytes, width ≤ source.length → raw.Agrees item source)
    (count : Nat) (source : Bytes) :
    Raw.Agrees (do Raw.ensure (count * width); Raw.repeatItem raw count [])
      (ensure (count * width) >>= fun _ => repeatItem item count []) source := by
  refine (Raw.agrees_ensure _ source).bind fun _ rest checked => ?_
  obtain ⟨enough, rfl⟩ := ensure_eq_ok_iff.1 checked
  exact fixed.agrees_repeatItem agrees [] enough

/-! ## Lists -/

/-- **Lists of records are read whole or not at all**, and exactly, also where their number does not
say all of them: then `items.take (items.length % 65536)` is read. What a record makes of fewer
bytes than its width does not show, and a reader built of partial operations may leave it undefined;
the product of number and width is then the only operation that asks for a bound. -/
theorem lists_whole_or_refused :
    (∀ (items : List α) (tail : Bytes),
      counted width item (Wire.counted form items ++ tail) =
        .ok (items.take (items.length % 65536))
          ((items.drop (items.length % 65536)).flatMap form ++ tail)) ∧
    (∀ source : Bytes,
      (source.length < 2 ∧
        counted width item source = .error (.truncated 2 source.length) source) ∨
      ∃ size part count, source = size ++ part ∧ Spells 2 size count ∧
        ((part.length < count * width ∧
            counted width item source = .error (.truncated (count * width) part.length) part) ∨
          ∃ values rest, part = values.flatMap form ++ rest ∧ values.length = count ∧
            (values.flatMap form).length = count * width ∧
            counted width item source = .ok values rest)) ∧
    (∀ (length : Nat) (source left : Bytes) (cause : CodecError),
      records length width item source = .error cause left ↔
        left = source ∧
          ((¬width ∣ length ∧ cause = .misaligned length width) ∨
            (width ∣ length ∧ source.length < length ∧
              cause = .truncated length source.length))) ∧
    (∀ (length : Nat) (source : Bytes), width ∣ length → length ≤ source.length →
      ∃ values : List α, values.length = length / width ∧
        values.flatMap form = source.take length ∧
        records length width item source = .ok values (source.drop length)) ∧
    (∀ other : Decoder α,
      (∀ source : Bytes, width ≤ source.length → other source = item source) →
        counted width other = counted width item ∧
        ∀ length, records length width other = records length width item) ∧
    ∀ raw : Raw CodecError α,
      (∀ source : Bytes, width ≤ source.length → raw.Agrees item source) →
        (65535 * width < Raw.sizeCount →
          ∀ source, (Raw.counted width raw).Agrees (counted width item) source) ∧
        ∀ length source,
          (Raw.records length width raw).Agrees (records length width item) source := by
  refine ⟨fixed.counted_append, fixed.counted_cases, ?_, ?_, ?_, ?_⟩
  · intro length source left cause
    exact fixed.records_error_iff
  · intro length source divides enough
    exact fixed.records_of_le_length divides enough
  · intro other same
    exact ⟨fixed.counted_congr same, fixed.records_congr same⟩
  · intro raw agrees
    refine ⟨Raw.agrees_counted_of_checked (fixed.agrees_checked agrees), ?_⟩
    intro length source
    refine Raw.agrees_records_of_checked (fun divides => ?_) (Nat.ne_of_gt fixed.positive)
    have behind := fixed.agrees_checked agrees (length / width) source
    rwa [Nat.div_mul_cancel divides] at behind

end Laws

/-- Of 65537 signatures the first is read back, since their number is written as one, and a reader
that takes them unchecked is defined where they are missing; of seventeen bytes sixteen are two ids,
and twelve are none. -/
theorem lists_whole_or_refused_signatures_and_ids :
    FixedWidth (Blob.decoder : Decoder Signature) Blob.bytes 64 ∧
    FieldType.signatures.decoder
        (FieldType.signatures.encode (List.replicate 65537 .zero) ++ [7]) =
      .ok [.zero] ((List.replicate 65536 (.zero : Signature)).flatMap Blob.bytes ++ [7]) ∧
    (Raw.counted 64 (Blob.mk <$> Raw.copyToSlice 64)).Agrees FieldType.signatures.decoder
      [0, 2, 9] ∧
    FixedWidth ShortChannelId.decoder ShortChannelId.encode 8 ∧
    (∃ ids : List ShortChannelId, ids.length = 2 ∧
      ids.flatMap ShortChannelId.encode = List.replicate 16 0 ∧
      records 16 8 ShortChannelId.decoder (List.replicate 17 0) = .ok ids [0]) ∧
    records 12 8 ShortChannelId.decoder (List.replicate 17 0) =
      .error (.misaligned 12 8) (List.replicate 17 0) := by
  obtain ⟨written, -, -, -, -, unchecked⟩ := lists_whole_or_refused (blob .signature)
  obtain ⟨-, -, refused, read, -⟩ := lists_whole_or_refused shortChannelId
  have run := written (List.replicate 65537 .zero) [7]
  rw [List.length_replicate, List.take_replicate, List.drop_replicate] at run
  have agrees := unchecked (Blob.mk <$> Raw.copyToSlice 64)
    fun _ enough => (Raw.agrees_copyToSlice enough).map Blob.mk
  exact ⟨blob .signature, run, agrees.1 (by decide) [0, 2, 9], shortChannelId,
    read 16 (List.replicate 17 0) (by decide) (by decide),
    (refused 12 _ _ _).2 ⟨rfl, .inl ⟨by decide, rfl⟩⟩⟩

end FixedWidth

end Decoder

end PeerWire
