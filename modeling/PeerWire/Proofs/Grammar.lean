import PeerWire.Message.Catalogue
import PeerWire.Proofs.CompressedStreams

/-! # The grammar of fields

The words of each type of field, said without decoders; what a compressed list holds is said by the
format of its stream (`Zlib.Holds`). `FieldType.Language` holds the words of a type, by their shape
alone; `FieldType.Denotes` also says which value a word stands for. A word is in the language
exactly when it denotes a value (`FieldType.language_iff`). Messages are spelled field by field
(`Spelled`, `Values.Denotes`), and whatever follows the last field is free. -/

namespace PeerWire

/-! ## Addresses -/

/-- The words of an address: its descriptor, its host and its port, `1 :: (host ++ port)` for the
first kind. -/
def NetAddress.SpelledBy : NetAddress → Bytes → Prop
  | .ipv4 host port, word => ∃ last, word = 1 :: (host.1 ++ last) ∧ Spells 2 last port.toNat
  | .ipv6 host port, word => ∃ last, word = 2 :: (host.1 ++ last) ∧ Spells 2 last port.toNat
  | .onionV2 service port, word =>
      ∃ last, word = 3 :: (service.1 ++ last) ∧ Spells 2 last port.toNat
  | .onionV3 key checksum version port, word =>
      ∃ sum middle last, word = 4 :: (key.1 ++ (sum ++ (middle ++ last))) ∧
        Spells 2 sum checksum.toNat ∧ Spells 1 middle version.toNat ∧ Spells 2 last port.toNat

/-- A block of addresses that ends before the first unknown descriptor; what is from there on is
the tail. -/
inductive AddressBlock (tail : Bytes) : Bytes → List NetAddress → Prop where
  /-- The tail is empty or starts with an unknown descriptor. -/
  | tail : (∀ byte ∈ tail.head?, AddressKind.ofDescriptor? byte = none) →
      AddressBlock tail tail []
  /-- An address in front of a block. -/
  | address {address : NetAddress} {word rest : Bytes} {addresses : List NetAddress} :
      address.SpelledBy word → AddressBlock tail rest addresses →
      AddressBlock tail (word ++ rest) (address :: addresses)

/-- A block in which every known descriptor before the first unknown one has its whole payload. -/
inductive WholeBlock : Bytes → Prop where
  /-- Nothing is left. -/
  | nil : WholeBlock []
  /-- The first unknown descriptor; whatever comes after it. -/
  | unknown {descriptor : UInt8} (rest : Bytes) :
      AddressKind.ofDescriptor? descriptor = none → WholeBlock (descriptor :: rest)
  /-- A known descriptor and its payload in front of a block. -/
  | known {kind : AddressKind} {payload rest : Bytes} :
      payload.length = kind.payloadWidth → WholeBlock rest →
      WholeBlock (kind.descriptor :: (payload ++ rest))

/-! ## Lists of short channel ids -/

/-- The words of a run of ids, eight bytes each: `content` is their concatenation. -/
def SpellsIds (content : Bytes) (ids : List ShortChannelId) : Prop :=
  ∃ words, List.Forall₂ (fun word id => Spells 8 word id.packed.toNat) words ids ∧
    content = words.flatten

/-- The ids written by a payload. A compressed payload is empty, or is `stream ++ junk` with
`Zlib.Holds stream content`, where the content spells the ids and keeps the limit; what follows the
stream is free. -/
def IdEncoding.Denotes : IdEncoding → Bytes → List ShortChannelId → Prop
  | .plain, payload, ids => SpellsIds payload ids
  | .zlib, payload, ids =>
      payload = [] ∧ ids = [] ∨
        ∃ stream junk content, payload = stream ++ junk ∧ Zlib.Holds stream content ∧
          content.length ≤ IdList.inflateLimit ∧ SpellsIds content ids

/-! ## Fields -/

namespace FieldType

/-- The words of a type of field, by their shape: what `Denotes` some value, said without the
value. -/
def Language : FieldType → Bytes → Prop
  | .u8, word => word.length = 1
  | .u16, word => word.length = 2
  | .u32, word => word.length = 4
  | .u64, word => word.length = 8
  | .flag, word => word = [0] ∨ word = [1]
  | .milliSatoshi, word => word.length = 8
  | .satoshi, word => word.length = 8
  | .feeRate, word => word.length = 4
  | .blob kind, word => word.length = kind.width
  | .bytes, word => ∃ content, Headed content.length content word
  | .features, word => ∃ content, Headed content.length content word
  | .signatures, word => ∃ count content, content.length = count * 64 ∧ Headed count content word
  | .shortChannelId, word => word.length = 8
  | .addresses, word => ∃ block, Headed block.length block word ∧ WholeBlock block
  | .idList, word =>
      (∃ payload, Headed (1 + payload.length) (0 :: payload) word ∧ 8 ∣ payload.length) ∨
      ∃ payload, Headed (1 + payload.length) (1 :: payload) word ∧
        (payload = [] ∨ ∃ stream junk content, payload = stream ++ junk ∧
          Zlib.Holds stream content ∧ content.length ≤ IdList.inflateLimit ∧ 8 ∣ content.length)

/-- The value that a word stands for: `type.Denotes word value`. -/
def Denotes : (type : FieldType) → Bytes → type.Value → Prop
  | .u8, word, value => Spells 1 word value.toNat
  | .u16, word, value => Spells 2 word value.toNat
  | .u32, word, value => Spells 4 word value.toNat
  | .u64, word, value => Spells 8 word value.toNat
  | .flag, word, value => word = [if value then 1 else 0]
  | .milliSatoshi, word, amount => Spells 8 word amount.value.toNat
  | .satoshi, word, amount => Spells 8 word amount.value.toNat
  | .feeRate, word, rate => Spells 4 word rate.value.toNat
  | .blob _, word, content => word = content.bytes
  | .bytes, word, content => Headed content.length content word
  | .features, word, vector =>
      ∃ content, Headed content.length content word ∧ vector.toBytes = content.dropWhile (· == 0)
  | .signatures, word, list => Headed list.length (list.flatMap Blob.bytes) word
  | .shortChannelId, word, id => Spells 8 word id.packed.toNat
  | .addresses, word, list =>
      ∃ block, Headed block.length block word ∧ AddressBlock list.unparsed block list.addresses
  | .idList, word, list =>
      Headed (1 + list.payload.length) (list.encoding.toByte :: list.payload) word ∧
        list.encoding.Denotes list.payload list.ids

end FieldType

/-! ## Field lists -/

/-- One word of its `Language` for each field. -/
def Spelled (fields : List Field) (words : List Bytes) : Prop :=
  List.Forall₂ (fun field word => field.type.Language word) fields words

/-- One word for each field, and the values they stand for: `Denotes fields words values`. -/
def Values.Denotes : (fields : List Field) → List Bytes → Values fields → Prop
  | [], words, () => words = []
  | field :: fields, words, (value, values) =>
      ∃ word later, words = word :: later ∧ field.type.Denotes word value ∧
        Denotes fields later values

/-! ## Words that denote -/

section Numbers

variable {α : Type} {width : Nat} {word : Bytes}

/-- A word of the width of a number denotes one. -/
theorem length_eq_iff_spells {ofNat : Nat → α} {toNat : α → Nat}
    (fits : ∀ number, number < byteStringCount width → toNat (ofNat number) = number) :
    word.length = width ↔ ∃ value, Spells width word (toNat value) := by
  constructor
  · rintro rfl
    exact ⟨ofNat (ofBigEndian word), rfl, (fits _ (ofBigEndian_lt word)).symm⟩
  · rintro ⟨value, spelled⟩
    exact spelled.1

/-- A word of one byte denotes a number. -/
theorem length_eq_one_iff : word.length = 1 ↔ ∃ value : UInt8, Spells 1 word value.toNat :=
  length_eq_iff_spells fun _ small => UInt8.toNat_ofNat_of_lt' small

/-- A word of two bytes denotes a number. -/
theorem length_eq_two_iff : word.length = 2 ↔ ∃ value : UInt16, Spells 2 word value.toNat :=
  length_eq_iff_spells fun _ small => UInt16.toNat_ofNat_of_lt' small

/-- A word of four bytes denotes a number. -/
theorem length_eq_four_iff : word.length = 4 ↔ ∃ value : UInt32, Spells 4 word value.toNat :=
  length_eq_iff_spells fun _ small => UInt32.toNat_ofNat_of_lt' small

/-- A word of eight bytes denotes a number. -/
theorem length_eq_eight_iff : word.length = 8 ↔ ∃ value : UInt64, Spells 8 word value.toNat :=
  length_eq_iff_spells fun _ small => UInt64.toNat_ofNat_of_lt' small

/-- A number that fits its width is spelled by its big-endian form, `bigEndian width number`, and by
nothing else. -/
theorem spells_iff_of_lt {number : Nat} (small : number < byteStringCount width) :
    Spells width word number ↔ word = bigEndian width number := by
  rw [spells_iff]
  exact and_iff_left small

end Numbers

/-- Every number is an amount in thousandths. -/
theorem MilliSatoshi.value_surjective : Function.Surjective MilliSatoshi.value :=
  fun number => ⟨⟨number⟩, rfl⟩

/-- Every number is an amount. -/
theorem Satoshi.value_surjective : Function.Surjective Satoshi.value :=
  fun number => ⟨⟨number⟩, rfl⟩

/-- Every number is a fee rate. -/
theorem FeeRate.value_surjective : Function.Surjective FeeRate.value :=
  fun number => ⟨⟨number⟩, rfl⟩

/-- Every number is a packed id. -/
theorem ShortChannelId.packed_surjective : Function.Surjective ShortChannelId.packed :=
  fun number => ⟨⟨number⟩, rfl⟩

section Runs

variable {α : Type} {form : α → Bytes} {width : Nat}

/-- A byte string with room for items of one width is made of as many, one after the other. -/
theorem length_eq_mul_iff
    (each : ∀ word : Bytes, word.length = width ↔ ∃ value, word = form value) (count : Nat)
    (content : Bytes) : content.length = count * width ↔
      ∃ values : List α, values.length = count ∧ content = values.flatMap form := by
  have even (value : α) : (form value).length = width := (each _).2 ⟨value, rfl⟩
  constructor
  · intro total
    induction count generalizing content with
    | zero =>
        rw [Nat.zero_mul] at total
        exact ⟨[], rfl, List.length_eq_zero_iff.1 total⟩
    | succ count ih =>
        rw [Nat.succ_mul] at total
        have front : (content.take width).length = width := List.length_take_of_le (by omega)
        obtain ⟨value, denoted⟩ := (each _).1 front
        obtain ⟨values, number, rest⟩ :=
          ih (content.drop width) (by rw [List.length_drop]; omega)
        refine ⟨value :: values, ?_, ?_⟩
        · rw [List.length_cons, number]
        · rw [List.flatMap_cons, ← denoted, ← rest, List.take_append_drop]
  · rintro ⟨values, rfl, rfl⟩
    exact Decoder.length_flatMap_form even values

end Runs

/-- A word as wide as a blob is the bytes of one. -/
theorem length_eq_width_iff (kind : BlobKind) (word : Bytes) :
    word.length = kind.width ↔ ∃ content : Blob kind, word = content.bytes := by
  constructor
  · intro wide
    exact ⟨⟨⟨word, wide⟩⟩, rfl⟩
  · rintro ⟨content, rfl⟩
    exact content.length_bytes

/-- An id is spelled by its wire form, `id.encode`, and by nothing else. -/
theorem ShortChannelId.spells_iff {word : Bytes} {id : ShortChannelId} :
    Spells 8 word id.packed.toNat ↔ word = id.encode :=
  spells_iff_of_lt id.packed.toNat_lt

/-- A run of ids is their wire forms, one after the other: `IdList.concat ids`. -/
theorem spellsIds_iff {content : Bytes} {ids : List ShortChannelId} :
    SpellsIds content ids ↔ content = IdList.concat ids := by
  have same : (fun word (id : ShortChannelId) => Spells 8 word id.packed.toNat) =
      fun word id => word = id.encode := by
    funext word id
    exact propext ShortChannelId.spells_iff
  constructor
  · rintro ⟨words, all, rfl⟩
    rw [same] at all
    induction all with
    | nil => rfl
    | cons spelled all ih =>
        rw [List.flatten_cons, ih, spelled]
        rfl
  · rintro rfl
    refine ⟨ids.map ShortChannelId.encode, ?_, rfl⟩
    rw [same, List.forall₂_map_left_iff]
    exact List.forall₂_same.2 fun _ _ => rfl

/-- Each id takes eight bytes. -/
@[simp] theorem IdList.length_concat (ids : List ShortChannelId) :
    (concat ids).length = ids.length * 8 :=
  Decoder.length_flatMap_form (fun _ => length_bigEndian _ _) ids

/-- A byte string is a run of ids when `8 ∣ content.length`. -/
theorem dvd_length_iff_spellsIds {content : Bytes} :
    8 ∣ content.length ↔ ∃ ids, SpellsIds content ids := by
  have each (word : Bytes) : word.length = 8 ↔ ∃ id : ShortChannelId, word = id.encode := by
    rw [length_eq_eight_iff, ShortChannelId.packed_surjective.exists]
    exact exists_congr fun id => ShortChannelId.spells_iff
  constructor
  · rintro ⟨count, total⟩
    rw [Nat.mul_comm] at total
    obtain ⟨ids, -, made⟩ := (length_eq_mul_iff each count content).1 total
    exact ⟨ids, spellsIds_iff.2 made⟩
  · rintro ⟨ids, made⟩
    rw [spellsIds_iff.1 made, IdList.length_concat]
    exact Nat.dvd_mul_left 8 ids.length

/-- The bytes of the set that a byte string writes are the byte string without its leading zeros. -/
theorem FeatureVector.toBytes_ofBytes (bytes : Bytes) :
    (ofBytes bytes).toBytes = bytes.dropWhile (· == 0) := by
  simp [ofBytes, ofOctets, toBytes, trimZeros]

/-- Sets with the same bytes are equal. -/
theorem FeatureVector.toBytes_injective {vector other : FeatureVector}
    (same : vector.toBytes = other.toBytes) : vector = other := by
  obtain ⟨octets, trimmed⟩ := vector
  obtain ⟨octets', trimmed'⟩ := other
  obtain rfl : octets = octets' := List.reverse_injective same
  rfl

/-- An address is spelled by its wire form, `address.encode`, and by nothing else. -/
theorem NetAddress.spelledBy_iff {address : NetAddress} {word : Bytes} :
    address.SpelledBy word ↔ word = address.encode := by
  have two (number : UInt16) (word : Bytes) :
      Spells 2 word number.toNat ↔ word = bigEndian 2 number.toNat :=
    spells_iff_of_lt number.toNat_lt
  have one (number : UInt8) (word : Bytes) :
      Spells 1 word number.toNat ↔ word = bigEndian 1 number.toNat :=
    spells_iff_of_lt number.toNat_lt
  cases address <;> simp [SpelledBy, encode, kind, AddressKind.descriptor, payload, two, one]

/-- A payload is as wide as its kind says. -/
@[simp] theorem NetAddress.length_payload (address : NetAddress) :
    address.payload.length = address.kind.payloadWidth := by
  cases address with
  | ipv4 host port => simp [payload, kind, AddressKind.payloadWidth, host.2]
  | ipv6 host port => simp [payload, kind, AddressKind.payloadWidth, host.2]
  | onionV2 service port => simp [payload, kind, AddressKind.payloadWidth, service.2]
  | onionV3 key checksum version port => simp [payload, kind, AddressKind.payloadWidth, key.2]

/-- A byte string as long as two parts is made of two. -/
theorem exists_append_of_length (front back : Nat) {content : Bytes}
    (total : content.length = front + back) :
    ∃ (first : Octets front) (second : Bytes), content = first.1 ++ second ∧
      second.length = back :=
  ⟨⟨content.take front, List.length_take_of_le (by omega)⟩, content.drop front,
    (List.take_append_drop front content).symm, by rw [List.length_drop]; omega⟩

/-- A payload of the width of its kind is that of an address. -/
theorem AddressKind.length_eq_payloadWidth_iff {kind : AddressKind} {payload : Bytes} :
    payload.length = kind.payloadWidth ↔
      ∃ address : NetAddress, address.kind = kind ∧ payload = address.payload := by
  have two {last : Bytes} (wide : last.length = 2) :
      ∃ number : UInt16, last = bigEndian 2 number.toNat := by
    obtain ⟨number, spelled⟩ := length_eq_two_iff.1 wide
    exact ⟨number, (spells_iff.1 spelled).1⟩
  have one {middle : Bytes} (wide : middle.length = 1) :
      ∃ number : UInt8, middle = bigEndian 1 number.toNat := by
    obtain ⟨number, spelled⟩ := length_eq_one_iff.1 wide
    exact ⟨number, (spells_iff.1 spelled).1⟩
  constructor
  · intro wide
    cases kind with
    | ipv4 =>
        obtain ⟨host, last, rfl, rest⟩ := exists_append_of_length 4 2 wide
        obtain ⟨port, rfl⟩ := two rest
        exact ⟨.ipv4 host port, rfl, rfl⟩
    | ipv6 =>
        obtain ⟨host, last, rfl, rest⟩ := exists_append_of_length 16 2 wide
        obtain ⟨port, rfl⟩ := two rest
        exact ⟨.ipv6 host port, rfl, rfl⟩
    | onionV2 =>
        obtain ⟨service, last, rfl, rest⟩ := exists_append_of_length 10 2 wide
        obtain ⟨port, rfl⟩ := two rest
        exact ⟨.onionV2 service port, rfl, rfl⟩
    | onionV3 =>
        obtain ⟨key, later, rfl, five⟩ := exists_append_of_length 32 5 wide
        obtain ⟨sum, later, rfl, three⟩ := exists_append_of_length 2 3 five
        obtain ⟨middle, last, rfl, rest⟩ := exists_append_of_length 1 2 three
        obtain ⟨checksum, spelledSum⟩ := two sum.2
        obtain ⟨version, spelledVersion⟩ := one middle.2
        obtain ⟨port, rfl⟩ := two rest
        refine ⟨.onionV3 key checksum version port, rfl, ?_⟩
        rw [spelledSum, spelledVersion, NetAddress.payload, List.append_assoc, List.append_assoc]
  · rintro ⟨address, rfl, rfl⟩
    exact address.length_payload

/-- A block is whole when it is the block of a list: `AddressBlock` gives its addresses and its
tail. -/
theorem wholeBlock_iff {block : Bytes} :
    WholeBlock block ↔ ∃ list : AddressList, AddressBlock list.unparsed block list.addresses := by
  constructor
  · intro whole
    induction whole with
    | nil => exact ⟨⟨[], [], by simp⟩, .tail (by simp)⟩
    | @unknown descriptor rest foreign =>
        have start : ∀ byte ∈ (descriptor :: rest).head?,
            AddressKind.ofDescriptor? byte = none := by
          simpa using foreign
        exact ⟨⟨[], descriptor :: rest, start⟩, .tail start⟩
    | @known kind payload rest wide _ ih =>
        obtain ⟨list, block⟩ := ih
        obtain ⟨address, rfl, rfl⟩ := AddressKind.length_eq_payloadWidth_iff.1 wide
        exact ⟨list.withAddresses (address :: list.addresses),
          .address (NetAddress.spelledBy_iff.2 rfl) block⟩
  · rintro ⟨list, made⟩
    -- Only the tail of the list matters, which the derivation carries along unchanged.
    generalize list.unparsed = tail, list.addresses = addresses at made
    induction made with
    | tail start =>
        match tail, start with
        | [], _ => exact .nil
        | descriptor :: rest, start => exact .unknown rest (start descriptor rfl)
    | @address address word rest addresses spelled _ ih =>
        rw [NetAddress.spelledBy_iff.1 spelled]
        exact .known (AddressKind.length_eq_payloadWidth_iff.2 ⟨address, rfl, rfl⟩) ih

/-- **The words of a type are those that denote a value of it**: `type.Language word` just where
`type.Denotes word value` for some value. -/
theorem FieldType.language_iff (type : FieldType) (word : Bytes) :
    type.Language word ↔ ∃ value, type.Denotes word value := by
  cases type with
  | u8 => exact length_eq_one_iff
  | u16 => exact length_eq_two_iff
  | u32 => exact length_eq_four_iff
  | u64 => exact length_eq_eight_iff
  | flag =>
      constructor
      · rintro (rfl | rfl)
        · exact ⟨false, rfl⟩
        · exact ⟨true, rfl⟩
      · rintro ⟨value, rfl⟩
        cases value
        · exact .inl rfl
        · exact .inr rfl
  | milliSatoshi => exact length_eq_eight_iff.trans MilliSatoshi.value_surjective.exists
  | satoshi => exact length_eq_eight_iff.trans Satoshi.value_surjective.exists
  | feeRate => exact length_eq_four_iff.trans FeeRate.value_surjective.exists
  | blob kind => exact length_eq_width_iff kind word
  | bytes => exact Iff.rfl
  | features =>
      constructor
      · rintro ⟨content, headed⟩
        exact ⟨.ofBytes content, content, headed, FeatureVector.toBytes_ofBytes content⟩
      · rintro ⟨vector, content, headed, -⟩
        exact ⟨content, headed⟩
  | signatures =>
      have made := length_eq_mul_iff (length_eq_width_iff .signature)
      constructor
      · rintro ⟨count, content, total, headed⟩
        obtain ⟨list, rfl, rfl⟩ := (made count content).1 total
        exact ⟨list, headed⟩
      · rintro ⟨list, headed⟩
        exact ⟨list.length, _, (made _ _).2 ⟨list, rfl, rfl⟩, headed⟩
  | shortChannelId => exact length_eq_eight_iff.trans ShortChannelId.packed_surjective.exists
  | addresses =>
      constructor
      · rintro ⟨block, headed, whole⟩
        obtain ⟨list, made⟩ := wholeBlock_iff.1 whole
        exact ⟨list, block, headed, made⟩
      · rintro ⟨list, block, headed, made⟩
        exact ⟨block, headed, wholeBlock_iff.2 ⟨list, made⟩⟩
  | idList =>
      constructor
      · rintro (⟨payload, headed, whole⟩ | ⟨payload, headed, whole⟩)
        · obtain ⟨ids, spelled⟩ := dvd_length_iff_spellsIds.1 whole
          exact ⟨⟨.plain, ids, payload⟩, headed, spelled⟩
        · rcases whole with rfl | ⟨stream, junk, content, rfl, held, small, whole⟩
          · exact ⟨⟨.zlib, [], []⟩, headed, .inl ⟨rfl, rfl⟩⟩
          · obtain ⟨ids, spelled⟩ := dvd_length_iff_spellsIds.1 whole
            exact ⟨⟨.zlib, ids, stream ++ junk⟩, headed,
              .inr ⟨stream, junk, content, rfl, held, small, spelled⟩⟩
      · rintro ⟨⟨encoding, ids, payload⟩, headed, denoted⟩
        cases encoding with
        | plain => exact .inl ⟨payload, headed, dvd_length_iff_spellsIds.2 ⟨ids, denoted⟩⟩
        | zlib =>
            refine .inr ⟨payload, headed, ?_⟩
            rcases denoted with ⟨none, -⟩ | ⟨stream, junk, content, whole, held, small, spelled⟩
            · exact .inl none
            · exact .inr ⟨stream, junk, content, whole, held, small,
                dvd_length_iff_spellsIds.2 ⟨ids, spelled⟩⟩

end PeerWire
