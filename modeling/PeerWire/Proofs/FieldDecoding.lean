import PeerWire.Proofs.Grammar

/-! # Decoders of fields

The decoder of a type of field accepts the words of its grammar: it succeeds exactly where a word
stands in front, takes that word and gives the value it denotes (`FieldType.accepts`). Addresses
and id lists have a part each that runs on a byte string of its own, which comes first. -/

namespace PeerWire

open Decoder

/-- A blob is read from its bytes. -/
theorem Blob.accepts (kind : BlobKind) :
    (Blob.decoder : Decoder (Blob kind)).Accepts fun word content => word = content.bytes :=
  (accepts_take kind.width).wrap (fun _ => rfl) fun _ => rfl

/-- A short channel id is read from its wire form. -/
theorem ShortChannelId.accepts :
    ShortChannelId.decoder.Accepts fun word id => Spells 8 word id.packed.toNat :=
  accepts_u64.wrap (fun _ => rfl) fun _ => rfl

/-- A feature vector is read from its bytes and whatever zeros stand in front of them:
`content.dropWhile (· == 0)` are its bytes. -/
theorem FeatureVector.accepts :
    FeatureVector.decoder.Accepts fun word vector =>
      ∃ content, Headed content.length content word ∧
        vector.toBytes = content.dropWhile (· == 0) := by
  refine (accepts_bytes.map ofBytes).congr fun word vector => ?_
  refine exists_congr fun content => and_congr_right fun _ => ?_
  rw [← toBytes_ofBytes]
  constructor
  · rintro rfl
    rfl
  · intro same
    exact (toBytes_injective same).symm

/-! ## Addresses -/

/-- The descriptors that name a kind: only `kind.descriptor`. -/
theorem AddressKind.ofDescriptor?_eq_some_iff {descriptor : UInt8} {kind : AddressKind} :
    ofDescriptor? descriptor = some kind ↔ descriptor = kind.descriptor := by
  constructor
  · intro found
    unfold ofDescriptor? at found
    split at found <;> cases found <;> rfl
  · rintro rfl
    cases kind <;> rfl

/-- A host of some width and a port are read one after the other. -/
theorem NetAddress.accepts_hostAndPort {width : Nat} (make : Octets width → UInt16 → NetAddress) :
    (do
      let host ← take width
      let port ← u16
      return make host port : Decoder NetAddress).Accepts fun word address =>
        ∃ (host : Octets width) (port : UInt16),
          word = host.1 ++ bigEndian 2 port.toNat ∧ make host port = address := by
  refine ((accepts_take width).bind fun host =>
    accepts_u16.bind fun port => accepts_pure (make host port)).congr fun word address => ?_
  constructor
  · rintro ⟨_, _, host, rfl, rfl, _, _, port, rfl, spelled, rfl, rfl⟩
    rw [List.append_nil, (spells_iff.1 spelled).1]
    exact ⟨host, port, rfl, rfl⟩
  · rintro ⟨host, port, rfl, rfl⟩
    exact ⟨host.1, _, host, rfl, rfl, _, [], port, (List.append_nil _).symm,
      spells_bigEndian port.toNat_lt, rfl, rfl⟩

/-- The payload of an address is read as the address: the words of a kind are `address.payload`. -/
theorem NetAddress.accepts_payloadDecoder (kind : AddressKind) :
    (payloadDecoder kind).Accepts fun word address =>
      address.kind = kind ∧ word = address.payload := by
  cases kind with
  | ipv4 =>
      refine (accepts_hostAndPort NetAddress.ipv4).congr fun word address => ?_
      constructor
      · rintro ⟨host, port, rfl, rfl⟩
        exact ⟨rfl, rfl⟩
      · rintro ⟨same, rfl⟩
        cases address with
        | ipv4 host port => exact ⟨host, port, rfl, rfl⟩
        | _ => cases same
  | ipv6 =>
      refine (accepts_hostAndPort NetAddress.ipv6).congr fun word address => ?_
      constructor
      · rintro ⟨host, port, rfl, rfl⟩
        exact ⟨rfl, rfl⟩
      · rintro ⟨same, rfl⟩
        cases address with
        | ipv6 host port => exact ⟨host, port, rfl, rfl⟩
        | _ => cases same
  | onionV2 =>
      refine (accepts_hostAndPort NetAddress.onionV2).congr fun word address => ?_
      constructor
      · rintro ⟨service, port, rfl, rfl⟩
        exact ⟨rfl, rfl⟩
      · rintro ⟨same, rfl⟩
        cases address with
        | onionV2 service port => exact ⟨service, port, rfl, rfl⟩
        | _ => cases same
  | onionV3 =>
      refine ((accepts_take 32).bind fun key => accepts_u16.bind fun checksum =>
        accepts_u8.bind fun version => accepts_u16.bind fun port =>
          accepts_pure (onionV3 key checksum version port)).congr fun word address => ?_
      constructor
      · rintro ⟨_, _, key, rfl, rfl, _, _, checksum, rfl, first, _, _, version, rfl, second, _, _,
          port, rfl, third, rfl, rfl⟩
        rw [List.append_nil, (spells_iff.1 first).1, (spells_iff.1 second).1,
          (spells_iff.1 third).1]
        exact ⟨rfl, by simp [payload]⟩
      · rintro ⟨same, rfl⟩
        cases address with
        | onionV3 key checksum version port =>
            refine ⟨key.1, _, key, by rw [payload, List.append_assoc, List.append_assoc], rfl, _, _,
              checksum, rfl, spells_bigEndian checksum.toNat_lt, _, _, version, rfl,
              spells_bigEndian version.toNat_lt, _, [], port, (List.append_nil _).symm,
              spells_bigEndian port.toNat_lt, rfl, rfl⟩
        | _ => cases same

/-- What stands at the front of a block `descriptor :: rest`: an unknown descriptor, which starts
the tail, or an address. -/
theorem addressBlock_cons_iff {tail rest : Bytes} {descriptor : UInt8}
    {addresses : List NetAddress} :
    AddressBlock tail (descriptor :: rest) addresses ↔
      (AddressKind.ofDescriptor? descriptor = none ∧ tail = descriptor :: rest ∧ addresses = []) ∨
      ∃ address later others, AddressKind.ofDescriptor? descriptor = some address.kind ∧
        rest = address.payload ++ later ∧ addresses = address :: others ∧
          AddressBlock tail later others := by
  constructor
  · intro made
    generalize whole : descriptor :: rest = block at made
    cases made with
    | tail start =>
        subst whole
        exact .inl ⟨start descriptor rfl, rfl, rfl⟩
    | @address address word later others spelled made =>
        rw [NetAddress.spelledBy_iff.1 spelled] at whole
        obtain ⟨rfl, rfl⟩ := List.cons.inj whole
        exact .inr ⟨address, later, others, AddressKind.ofDescriptor?_eq_some_iff.2 rfl, rfl, rfl,
          made⟩
  · rintro (⟨foreign, rfl, rfl⟩ | ⟨address, later, others, found, rfl, rfl, made⟩)
    · exact .tail (by simpa using foreign)
    · rw [AddressKind.ofDescriptor?_eq_some_iff.1 found]
      exact .address (NetAddress.spelledBy_iff.2 rfl) made

/-- The empty block has no addresses and no tail. -/
theorem addressBlock_nil_iff {tail : Bytes} {addresses : List NetAddress} :
    AddressBlock tail [] addresses ↔ tail = [] ∧ addresses = [] := by
  constructor
  · intro made
    generalize whole : ([] : Bytes) = block at made ⊢
    cases made with
    | tail start => exact ⟨rfl, rfl⟩
    | @address address word later others spelled made =>
        rw [NetAddress.spelledBy_iff.1 spelled] at whole
        cases whole
  · rintro ⟨rfl, rfl⟩
    exact .tail (by simp)

/-- A block that starts with a known descriptor starts with an address of the kind. -/
theorem addressBlock_known_iff {tail rest : Bytes} {descriptor : UInt8} {kind : AddressKind}
    {addresses : List NetAddress} (found : AddressKind.ofDescriptor? descriptor = some kind) :
    AddressBlock tail (descriptor :: rest) addresses ↔
      ∃ address later others, address.kind = kind ∧ rest = address.payload ++ later ∧
        addresses = address :: others ∧ AddressBlock tail later others := by
  rw [addressBlock_cons_iff, found]
  constructor
  · rintro (⟨foreign, -⟩ | ⟨address, later, others, same, parts⟩)
    · cases foreign
    · exact ⟨address, later, others, (Option.some.inj same).symm, parts⟩
  · rintro ⟨address, later, others, rfl, parts⟩
    exact .inr ⟨address, later, others, rfl, parts⟩

/-- A whole payload is read as its address, with nothing left of it. -/
theorem NetAddress.payloadDecoder_eq_ok_iff {kind : AddressKind} {payload left : Bytes}
    {address : NetAddress} (wide : payload.length = kind.payloadWidth) :
    payloadDecoder kind payload = .ok address left ↔
      address.kind = kind ∧ payload = address.payload ∧ left = [] := by
  rw [accepts_payloadDecoder kind]
  constructor
  · rintro ⟨_, rfl, rfl, rfl⟩
    rw [List.length_append, length_payload] at wide
    obtain rfl := List.length_eq_zero_iff.1 (Nat.add_eq_left.1 wide)
    exact ⟨rfl, List.append_nil _, rfl⟩
  · rintro ⟨same, rfl, rfl⟩
    exact ⟨_, (List.append_nil _).symm, same, rfl⟩

/-- **A block is read as its addresses and its tail**: `parseBlock done block` succeeds just where
`AddressBlock list.unparsed block others` holds, and adds `others` to those done. -/
theorem AddressList.parseBlock_eq_ok_iff {done : List NetAddress} {block : Bytes}
    {list : AddressList} :
    parseBlock done block = .ok list ↔
      ∃ others, list.addresses = done.reverse ++ others ∧
        AddressBlock list.unparsed block others := by
  obtain ⟨addresses, tail, start⟩ := list
  fun_induction parseBlock done block with
  | case1 done =>
      simp only [addressBlock_nil_iff, ofAddresses, Except.ok.injEq]
      constructor
      · rintro ⟨rfl, rfl⟩
        exact ⟨[], (List.append_nil _).symm, rfl, rfl⟩
      · rintro ⟨_, rfl, rfl, rfl⟩
        simp
  | case2 done descriptor rest foreign =>
      simp only [Except.ok.injEq, mk.injEq, addressBlock_cons_iff, foreign]
      constructor
      · rintro ⟨rfl, rfl⟩
        exact ⟨[], (List.append_nil _).symm, .inl ⟨trivial, rfl, rfl⟩⟩
      · rintro ⟨_, rfl, ⟨-, rfl, rfl⟩ | ⟨_, _, _, same, -⟩⟩
        · exact ⟨(List.append_nil _).symm, rfl⟩
        · cases same
  | case3 done descriptor rest kind found cause left short =>
      -- The payload is cut off, but a block with this descriptor would hold all of it.
      constructor
      · intro same
        cases same
      · rintro ⟨others, -, made⟩
        obtain ⟨address, later, _, rfl, rfl, -⟩ := (addressBlock_known_iff found).1 made
        have run := take_append ⟨address.payload, address.length_payload⟩ later
        rw [short] at run
        cases run
  | case4 done descriptor rest kind found payload left taken cause left' failed =>
      -- A payload of the right width is always that of an address.
      obtain ⟨address, same, whole⟩ := AddressKind.length_eq_payloadWidth_iff.1 payload.2
      rw [NetAddress.decoderAfter_of_known found,
        (NetAddress.payloadDecoder_eq_ok_iff payload.2).2 ⟨same, whole, rfl⟩] at failed
      cases failed
  | case5 done descriptor rest kind found payload left taken address left' read ih =>
      rw [NetAddress.decoderAfter_of_known found] at read
      obtain ⟨rfl, whole, -⟩ := (NetAddress.payloadDecoder_eq_ok_iff payload.2).1 read
      obtain ⟨_, rfl, rfl⟩ := (accepts_take _ _ _ _).1 taken
      rw [ih, List.drop_left' payload.2]
      constructor
      · rintro ⟨others, rfl, made⟩
        refine ⟨address :: others, by simp, (addressBlock_known_iff found).2 ?_⟩
        exact ⟨address, left, others, rfl, by rw [whole], rfl, made⟩
      · rintro ⟨_, rfl, made⟩
        -- The block starts with some address of the kind, which can only be the one read.
        obtain ⟨other, later, others, same, parts, rfl, made⟩ :=
          (addressBlock_known_iff found).1 made
        obtain ⟨-, rfl, rfl⟩ := (NetAddress.accepts_payloadDecoder address.kind).unique parts
          ⟨rfl, whole⟩ ⟨same, rfl⟩
        exact ⟨others, by simp, made⟩

/-- A list of addresses is read from the block that holds it, headed by the length of the block. -/
theorem AddressList.accepts :
    AddressList.decoder.Accepts fun word list =>
      ∃ block, Headed block.length block word ∧
        AddressBlock list.unparsed block list.addresses := by
  refine Accepts.congr (Accepts.bind accepts_bytes fun block => (?_ : Accepts _
    fun word list => word = [] ∧ parseBlock [] block = .ok list)) fun word list => ?_
  · cases parseBlock [] block with
    | error cause => exact (accepts_throw cause).congr fun word list => by simp
    | ok list => exact (accepts_pure list).congr fun word list => by simp
  constructor
  · rintro ⟨_, _, block, rfl, headed, rfl, run⟩
    obtain ⟨others, same, made⟩ := parseBlock_eq_ok_iff.1 run
    rw [List.append_nil]
    refine ⟨block, headed, ?_⟩
    rw [show list.addresses = others from same]
    exact made
  · rintro ⟨block, headed, made⟩
    exact ⟨word, [], block, (List.append_nil _).symm, headed, rfl,
      parseBlock_eq_ok_iff.2 ⟨_, rfl, made⟩⟩

/-! ## Id lists -/

/-- The bytes that name an encoding. -/
theorem IdEncoding.ofByte?_eq_some_iff {byte : UInt8} {encoding : IdEncoding} :
    ofByte? byte = some encoding ↔ byte = encoding.toByte := by
  constructor
  · intro found
    unfold ofByte? at found
    split at found <;> cases found <;> rfl
  · rintro rfl
    cases encoding <;> rfl

/-- The ids of a byte string are read when it is a run of them, `SpellsIds content ids`. -/
theorem IdList.parseRecords_eq_ok_iff {content : Bytes} {ids : List ShortChannelId} :
    parseRecords content = .ok ids ↔ SpellsIds content ids := by
  have item : ShortChannelId.decoder.Accepts fun word id => word = id.encode :=
    ShortChannelId.accepts.congr fun _ _ => ShortChannelId.spells_iff
  have accepts := accepts_records item (fun _ => length_bigEndian _ _) (by decide) content.length
  rw [spellsIds_iff]
  constructor
  · intro run
    unfold parseRecords at run
    split at run
    · rename_i found left records
      cases run
      obtain ⟨word, whole, total, rfl⟩ := (accepts _ _ _).1 records
      rw [whole, List.length_append] at total
      rw [whole, List.length_eq_zero_iff.1 (Nat.left_eq_add.1 total), List.append_nil]
      rfl
    · cases run
  · rintro same
    have run := (accepts content ids []).2 ⟨content, (List.append_nil _).symm, rfl, same⟩
    unfold parseRecords
    rw [show ShortChannelId.width = 8 from rfl, run]

/-- The ids of a payload are those that it writes, `encoding.Denotes payload ids`. -/
theorem IdList.parsePayload_eq_ok_iff {encoding : IdEncoding} {payload : Bytes}
    {ids : List ShortChannelId} :
    parsePayload encoding payload = .ok ids ↔ encoding.Denotes payload ids := by
  cases encoding with
  | plain => exact parseRecords_eq_ok_iff
  | zlib =>
      cases payload with
      | nil =>
          constructor
          · intro run
            cases run
            exact .inl ⟨rfl, rfl⟩
          · rintro (⟨-, rfl⟩ | ⟨stream, junk, content, whole, ⟨_, _, _, _, rfl, -⟩, -⟩)
            · rfl
            · cases whole
      | cons byte payload =>
          unfold parsePayload
          simp only [List.isEmpty_cons, Bool.false_eq_true, if_false]
          constructor
          · intro run
            split at run
            · cases run
            · rename_i out inflated
              obtain ⟨small, stream, junk, whole, held⟩ := Zlib.decompress_eq_ok_iff.1 inflated
              rw [Zlib.toList_eq_data_toList] at run
              exact .inr ⟨stream, junk, _, whole, held, small, parseRecords_eq_ok_iff.1 run⟩
          · rintro (⟨whole, -⟩ | ⟨stream, junk, content, whole, held, small, spelled⟩)
            · cases whole
            · have inflated : Zlib.decompress inflateLimit (byte :: payload) =
                  .ok ⟨content.toArray⟩ :=
                Zlib.decompress_eq_ok_iff.2 ⟨small, stream, junk, whole, held⟩
              rw [inflated]
              simp only [Zlib.toList_eq_data_toList]
              exact parseRecords_eq_ok_iff.2 spelled

/-- The payload of a list is all that its length leaves after the encoding byte. -/
theorem IdList.accepts_payload (encoding : IdEncoding) (width : Nat) :
    (do
      let payload ← take width
      match parsePayload encoding payload.1 with
      | .error error => throw error
      | .ok ids => return ⟨encoding, ids, payload.1⟩ : Decoder IdList).Accepts
        fun word list => word = list.payload ∧ list.payload.length = width ∧
          list.encoding = encoding ∧ encoding.Denotes list.payload list.ids := by
  refine Accepts.congr (Accepts.bind (accepts_take width) fun payload => (?_ : Accepts _
    fun word list => word = [] ∧ ∃ ids, parsePayload encoding payload.1 = .ok ids ∧
      ⟨encoding, ids, payload.1⟩ = list)) fun word list => ?_
  · cases parsePayload encoding payload.1 with
    | error cause => exact (accepts_throw cause).congr fun word list => by simp
    | ok ids => exact (accepts_pure _).congr fun word list => by simp
  constructor
  · rintro ⟨_, _, payload, rfl, rfl, rfl, ids, run, rfl⟩
    exact ⟨List.append_nil _, payload.2, rfl, parsePayload_eq_ok_iff.1 run⟩
  · rintro ⟨rfl, wide, rfl, denoted⟩
    exact ⟨list.payload, [], ⟨list.payload, wide⟩, (List.append_nil _).symm, rfl, rfl, list.ids,
      parsePayload_eq_ok_iff.2 denoted, rfl⟩

/-- **A list of ids is read from its encoding byte and its payload**, which the length `1 +
payload.length` heads. -/
theorem IdList.accepts :
    IdList.decoder.Accepts fun word list =>
      Headed (1 + list.payload.length) (list.encoding.toByte :: list.payload) word ∧
        list.encoding.Denotes list.payload list.ids := by
  refine Accepts.congr (Accepts.bind accepts_u16 fun length => (?_ : Accepts _ fun word list =>
    word = list.encoding.toByte :: list.payload ∧ 1 + list.payload.length = length.toNat ∧
      list.encoding.Denotes list.payload list.ids)) fun word list => ?_
  · split
    · rename_i zero
      refine (accepts_throw _).congr fun word list => ?_
      simp only [false_iff, not_and]
      rintro - total
      rw [zero] at total
      cases Nat.add_eq_zero_iff.1 total with
      | intro one _ => cases one
    · rename_i positive
      have whole : 1 + (length.toNat - 1) = length.toNat := by
        have : length.toNat ≠ 0 := fun zero => positive (UInt16.toNat_inj.1 zero)
        omega
      -- What is left to do after the encoding byte is `accepts_payload`, if the byte names one.
      refine Accepts.congr (Accepts.ensure (Accepts.bind accepts_u8 fun byte =>
        (?_ : Accepts _ fun word list => word = list.payload ∧
          list.payload.length = length.toNat - 1 ∧ byte = list.encoding.toByte ∧
            list.encoding.Denotes list.payload list.ids)) length.toNat fun word list => ?_)
        fun word list => ?_
      · cases found : IdEncoding.ofByte? byte with
        | none =>
            refine (accepts_throw _).congr fun word list => ?_
            simp only [false_iff, not_and]
            rintro - - same
            rw [IdEncoding.ofByte?_eq_some_iff.2 same] at found
            cases found
        | some encoding =>
            obtain rfl := IdEncoding.ofByte?_eq_some_iff.1 found
            refine (accepts_payload encoding (length.toNat - 1)).congr fun word list =>
              and_congr_right fun _ => and_congr_right fun _ => ?_
            constructor
            · rintro ⟨rfl, denoted⟩
              exact ⟨rfl, denoted⟩
            · rintro ⟨same, denoted⟩
              rw [IdEncoding.ofByte?_eq_some_iff.2 same] at found
              obtain rfl := Option.some.inj found
              exact ⟨rfl, denoted⟩
      · rintro ⟨first, _, byte, rfl, spelled, rfl, wide, -, -⟩
        exact Nat.le_of_eq (by rw [List.length_append, spelled.1, wide, whole])
      · constructor
        · rintro ⟨first, _, byte, rfl, spelled, rfl, wide, rfl, denoted⟩
          rw [spells_one.1 spelled, wide]
          exact ⟨rfl, whole, denoted⟩
        · rintro ⟨rfl, total, denoted⟩
          exact ⟨_, list.payload, _, rfl, spells_one.2 rfl, rfl, by omega, rfl, denoted⟩
  constructor
  · rintro ⟨size, _, length, rfl, spelled, rfl, total, denoted⟩
    rw [← total] at spelled
    exact ⟨⟨size, spelled, rfl⟩, denoted⟩
  · rintro ⟨⟨size, spelled, rfl⟩, denoted⟩
    have fits : (UInt16.ofNat (1 + list.payload.length)).toNat = 1 + list.payload.length :=
      UInt16.toNat_ofNat_of_lt' (spells_iff.1 spelled).2
    refine ⟨size, _, UInt16.ofNat (1 + list.payload.length), rfl, ?_, rfl, fits.symm, denoted⟩
    rw [fits]
    exact spelled

/-! ## All types -/

/-- **The decoder of every type of field accepts its grammar**: `type.decoder` takes the words of
`type.Denotes`. -/
theorem FieldType.accepts (type : FieldType) : type.decoder.Accepts type.Denotes := by
  cases type with
  | u8 => exact accepts_u8
  | u16 => exact accepts_u16
  | u32 => exact accepts_u32
  | u64 => exact accepts_u64
  | flag => exact accepts_flag
  | milliSatoshi => exact accepts_u64.wrap (fun _ => rfl) fun _ => rfl
  | satoshi => exact accepts_u64.wrap (fun _ => rfl) fun _ => rfl
  | feeRate => exact accepts_u32.wrap (fun _ => rfl) fun _ => rfl
  | blob kind => exact Blob.accepts kind
  | bytes => exact accepts_bytes
  | features => exact FeatureVector.accepts
  | signatures => exact accepts_counted (Blob.accepts .signature) Blob.length_bytes
  | shortChannelId => exact ShortChannelId.accepts
  | addresses => exact AddressList.accepts
  | idList => exact IdList.accepts

end PeerWire
