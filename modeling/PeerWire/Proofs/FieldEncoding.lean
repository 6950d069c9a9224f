import PeerWire.Proofs.FieldDecoding

/-! # Wire forms of fields

Writing a value can lose it: a length prefix has room for two bytes only. A value *in range* keeps
every prefix and the limit on compressed lists, and its wire form is a word of the grammar that
denotes it (`FieldType.denotes_encode`). What is denoted by any word is in range, and is written
back as the word in its canonical form, which only differs for feature vectors. -/

namespace PeerWire

/-! ## Ranges -/

/-- The ids of a compressed list are within the limit: `8 * list.ids.length ≤ inflateLimit`. -/
def IdList.Inflatable (list : IdList) : Prop :=
  list.encoding = .zlib → 8 * list.ids.length ≤ inflateLimit

namespace FieldType

/-- Lengths and counts that their prefixes can say, at most 65535, and compressed lists within the
limit. -/
def InRange : (type : FieldType) → type.Value → Prop
  | .bytes, content => content.length ≤ 65535
  | .features, vector => vector.byteLength ≤ 65535
  | .signatures, list => list.length ≤ 65535
  | .addresses, list => list.blockLength ≤ 65535
  | .idList, list => list.payload.length ≤ 65534 ∧ list.Inflatable
  | _, _ => True

/-- Compressed lists within the limit. -/
def Inflatable : (type : FieldType) → type.Value → Prop
  | .idList, list => list.Inflatable
  | _, _ => True

/-- The payload of an id list writes its ids. -/
def Written : (type : FieldType) → type.Value → Prop
  | .idList, list => list.encoding.Denotes list.payload list.ids
  | _, _ => True

/-- A word as it is written: a feature vector without leading zeros and with the length that it has
then, `Wire.length content.length ++ content`; any other word as it is. -/
def canonical : FieldType → Bytes → Bytes
  | .features, word =>
      let content := (word.drop 2).dropWhile (· == 0)
      Wire.length content.length ++ content
  | _, word => word

end FieldType

/-! ## Feature vectors -/

/-- The bytes of a set have no leading zeros. -/
theorem FeatureVector.dropWhile_toBytes (vector : FeatureVector) :
    vector.toBytes.dropWhile (· == 0) = vector.toBytes := by
  have start : vector.toBytes.head? ≠ some 0 := by
    rw [toBytes, List.head?_reverse]
    exact vector.trimmed
  cases whole : vector.toBytes with
  | nil => rfl
  | cons byte rest =>
      rw [whole] at start
      exact List.dropWhile_cons_of_neg (by simpa using start)

/-- A set has as many bytes as are written. -/
@[simp] theorem FeatureVector.length_toBytes (vector : FeatureVector) :
    vector.toBytes.length = vector.octets.length :=
  List.length_reverse

/-! ## Address blocks -/

/-- A block is the wire forms of its addresses and its tail: `addresses.flatMap NetAddress.encode ++
tail`. -/
theorem addressBlock_iff {tail block : Bytes} {addresses : List NetAddress} :
    AddressBlock tail block addresses ↔
      block = addresses.flatMap NetAddress.encode ++ tail ∧
        ∀ byte ∈ tail.head?, AddressKind.ofDescriptor? byte = none := by
  constructor
  · intro made
    induction made with
    | tail start => exact ⟨rfl, start⟩
    | @address address word rest addresses spelled _ ih =>
        rw [NetAddress.spelledBy_iff.1 spelled, ih.1, List.flatMap_cons, List.append_assoc]
        exact ⟨rfl, ih.2⟩
  · rintro ⟨rfl, start⟩
    induction addresses with
    | nil => exact .tail start
    | cons address addresses ih =>
        rw [List.flatMap_cons, List.append_assoc]
        exact .address (NetAddress.spelledBy_iff.2 rfl) ih

/-- The wire form of an address is as long as it says. -/
@[simp] theorem NetAddress.length_encode (address : NetAddress) :
    address.encode.length = address.encodedLength := by
  rw [encode, List.length_cons, length_payload, encodedLength, Nat.add_comm]

/-- A block is as long as `list.blockLength` says. -/
theorem AddressList.length_block (list : AddressList) :
    (list.addresses.flatMap NetAddress.encode ++ list.unparsed).length = list.blockLength := by
  obtain ⟨addresses, tail, start⟩ := list
  unfold blockLength
  induction addresses with
  | nil => rfl
  | cons address addresses ih =>
      rw [List.flatMap_cons, List.append_assoc, List.length_append, NetAddress.length_encode, ih,
        List.foldr_cons]

namespace FieldType

/-! ## Lengths -/

/-- The wire form of a value is as long as `type.encodedLength value` says. -/
theorem length_encode (type : FieldType) (value : type.Value) :
    (type.encode value).length = type.encodedLength value := by
  cases type with
  | u8 => exact length_bigEndian 1 _
  | u16 => exact length_bigEndian 2 _
  | u32 => exact length_bigEndian 4 _
  | u64 => exact length_bigEndian 8 _
  | flag => rfl
  | milliSatoshi => exact length_bigEndian 8 _
  | satoshi => exact length_bigEndian 8 _
  | feeRate => exact length_bigEndian 4 _
  | blob kind => exact value.length_bytes
  | bytes =>
      rw [encode, Wire.bytes, List.length_append, Wire.length, length_bigEndian, encodedLength]
  | features =>
      rw [encode, FeatureVector.encode, List.length_append, Wire.length, length_bigEndian,
        FeatureVector.length_toBytes, encodedLength, FeatureVector.encodedLength]
  | signatures =>
      rw [encode, Wire.counted, List.length_append, Wire.length, length_bigEndian,
        Decoder.length_flatMap_form Blob.length_bytes, encodedLength]
  | shortChannelId => exact length_bigEndian 8 _
  | addresses =>
      rw [encode, AddressList.encode, List.append_assoc, List.length_append,
        AddressList.length_block, Wire.length, length_bigEndian, encodedLength,
        AddressList.encodedLength]
  | idList =>
      rw [encode, IdList.encode, List.length_append, Wire.length, length_bigEndian,
        List.length_cons, encodedLength, IdList.encodedLength]
      omega

/-- A value whose wire form has room in a frame is in range, if it keeps the limit on compressed
lists: a prefix that wraps stands in front of more bytes than a frame can have. -/
theorem inRange_of_encodedLength_le {type : FieldType} {value : type.Value}
    (short : type.encodedLength value ≤ 65535) (inflatable : type.Inflatable value) :
    type.InRange value := by
  cases type with
  | bytes => exact Nat.le_trans (Nat.le_add_left value.length 2) short
  | features => exact Nat.le_trans (Nat.le_add_left value.octets.length 2) short
  | signatures =>
      -- The count could wrap, but so many signatures take far more bytes than the bound.
      have : 2 + value.length * 64 ≤ 65535 := short
      show value.length ≤ 65535
      omega
  | addresses => exact Nat.le_trans (Nat.le_add_left value.blockLength 2) short
  | idList =>
      have : 3 + value.payload.length ≤ 65535 := short
      exact ⟨by omega, inflatable⟩
  | _ => trivial

/-! ## What words denote -/

/-- What a word denotes is in range: `type.Denotes word value` gives `type.InRange value`. -/
theorem inRange_of_denotes {type : FieldType} {word : Bytes} {value : type.Value}
    (denoted : type.Denotes word value) : type.InRange value := by
  cases type with
  | bytes => exact Nat.le_of_lt_succ denoted.lt
  | features =>
      obtain ⟨content, headed, trimmed⟩ := denoted
      have shorter := (List.dropWhile_suffix (· == (0 : UInt8)) (l := content)).length_le
      rw [← trimmed, FeatureVector.length_toBytes] at shorter
      exact Nat.le_trans shorter (Nat.le_of_lt_succ headed.lt)
  | signatures => exact Nat.le_of_lt_succ denoted.lt
  | addresses =>
      obtain ⟨block, headed, made⟩ := denoted
      rw [(addressBlock_iff.1 made).1, AddressList.length_block] at headed
      exact Nat.le_of_lt_succ headed.lt
  | idList =>
      obtain ⟨headed, denoted⟩ := denoted
      refine ⟨by have := headed.lt; omega, ?_⟩
      intro compressed
      rw [compressed] at denoted
      -- An empty payload has no ids; otherwise the stream gives them, eight bytes each.
      rcases denoted with ⟨-, none⟩ | ⟨stream, junk, content, -, -, small, spelled⟩
      · rw [none]
        exact Nat.zero_le _
      · rw [spellsIds_iff.1 spelled, IdList.length_concat, Nat.mul_comm] at small
        exact small
  | _ => trivial

/-- The payload of a denoted list writes its ids. -/
theorem written_of_denotes {type : FieldType} {word : Bytes} {value : type.Value}
    (denoted : type.Denotes word value) : type.Written value := by
  cases type with
  | idList => exact denoted.2
  | _ => trivial

/-- **What a word denotes is written back as the word in its canonical form**: `type.encode value =
type.canonical word`. -/
theorem encode_of_denotes {type : FieldType} {word : Bytes} {value : type.Value}
    (denoted : type.Denotes word value) : type.encode value = type.canonical word := by
  cases type with
  | u8 => exact (spells_iff.1 denoted).1.symm
  | u16 => exact (spells_iff.1 denoted).1.symm
  | u32 => exact (spells_iff.1 denoted).1.symm
  | u64 => exact (spells_iff.1 denoted).1.symm
  | flag => exact denoted.symm
  | milliSatoshi => exact (spells_iff.1 denoted).1.symm
  | satoshi => exact (spells_iff.1 denoted).1.symm
  | feeRate => exact (spells_iff.1 denoted).1.symm
  | blob kind => exact denoted.symm
  | bytes => exact (headed_iff.1 denoted).1.symm
  | features =>
      obtain ⟨content, ⟨size, ⟨two, -⟩, rfl⟩, trimmed⟩ := denoted
      rw [canonical, List.drop_left' two, ← trimmed, encode, FeatureVector.encode,
        value.length_toBytes]
  | signatures => exact (headed_iff.1 denoted).1.symm
  | shortChannelId => exact (spells_iff.1 denoted).1.symm
  | addresses =>
      obtain ⟨block, headed, made⟩ := denoted
      rw [(addressBlock_iff.1 made).1, AddressList.length_block] at headed
      rw [encode, AddressList.encode, List.append_assoc]
      exact (headed_iff.1 headed).1.symm
  | idList => exact (headed_iff.1 denoted.1).1.symm

/-- **The wire form of a value in range denotes the value**: `type.Denotes (type.encode value)
value`. -/
theorem denotes_encode {type : FieldType} {value : type.Value} (range : type.InRange value)
    (written : type.Written value) : type.Denotes (type.encode value) value := by
  cases type with
  | u8 => exact spells_bigEndian value.toNat_lt
  | u16 => exact spells_bigEndian value.toNat_lt
  | u32 => exact spells_bigEndian value.toNat_lt
  | u64 => exact spells_bigEndian value.toNat_lt
  | flag => rfl
  | milliSatoshi => exact spells_bigEndian value.value.toNat_lt
  | satoshi => exact spells_bigEndian value.value.toNat_lt
  | feeRate => exact spells_bigEndian value.value.toNat_lt
  | blob kind => rfl
  | bytes => exact headed_iff.2 ⟨rfl, Nat.lt_succ_of_le range⟩
  | features =>
      refine ⟨value.toBytes, headed_iff.2 ⟨?_, ?_⟩, value.dropWhile_toBytes.symm⟩
      · rw [encode, FeatureVector.encode, value.length_toBytes]
      · rw [value.length_toBytes]
        exact Nat.lt_succ_of_le range
  | signatures => exact headed_iff.2 ⟨rfl, Nat.lt_succ_of_le range⟩
  | shortChannelId => exact spells_bigEndian value.packed.toNat_lt
  | addresses =>
      have wide := value.length_block
      refine ⟨_, headed_iff.2 ⟨?_, ?_⟩, addressBlock_iff.2 ⟨rfl, value.unknown_start⟩⟩
      · rw [wide, ← List.append_assoc]
        rfl
      · rw [wide]
        exact Nat.lt_succ_of_le range
  | idList =>
      obtain ⟨short, -⟩ := range
      exact ⟨headed_iff.2 ⟨rfl, by omega⟩, written⟩

/-- A word is at most as long as it was when it is written back. -/
theorem length_canonical_le {type : FieldType} {word : Bytes} (inLanguage : type.Language word) :
    (type.canonical word).length ≤ word.length := by
  cases type with
  | features =>
      obtain ⟨content, ⟨size, ⟨two, -⟩, rfl⟩⟩ := inLanguage
      rw [canonical, List.drop_left' two, List.length_append, List.length_append, Wire.length,
        length_bigEndian, two]
      exact Nat.add_le_add_left (List.dropWhile_suffix _).length_le 2
  | _ => exact Nat.le_refl _

/-- Only feature vectors are not written back as they are: `type.canonical word = word` for other
types. -/
theorem canonical_of_ne {type : FieldType} (other : type ≠ .features) (word : Bytes) :
    type.canonical word = word := by
  cases type with
  | features => exact absurd rfl other
  | _ => rfl

end FieldType

end PeerWire
