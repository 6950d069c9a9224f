import PeerWire.Proofs.FieldEncoding

/-! # Reading and editing lists of addresses

A block of addresses *divides* into addresses, each known and complete, and a tail that starts with
no known descriptor. It does so in at most one way, and it is read exactly when it does
(`AddressList.parseBlock_eq_ok_iff_divides`). A block that does not divide has a known descriptor
with too few bytes after it, behind addresses that are complete: it is *cut short*
(`AddressList.parseBlock_eq_error_iff`), so that the error about an unknown descriptor is never
given. A list keeps its tail when its addresses are replaced, and is read back as edited, since the
tail still starts with no known descriptor (`AddressList.decoder_divides_and_edits`). -/

namespace PeerWire

open Decoder

/-- The bytes that name no kind of address: `byte < 1` or `4 < byte`. -/
theorem AddressKind.ofDescriptor?_eq_none_iff {byte : UInt8} :
    ofDescriptor? byte = none ↔ byte < 1 ∨ 4 < byte := by
  constructor
  · intro foreign
    have ne (kind : AddressKind) : byte.toNat ≠ kind.descriptor.toNat := by
      intro same
      rw [ofDescriptor?_eq_some_iff.2 (UInt8.toNat_inj.1 same)] at foreign
      cases foreign
    have one : byte.toNat ≠ 1 := ne .ipv4
    have two : byte.toNat ≠ 2 := ne .ipv6
    have three : byte.toNat ≠ 3 := ne .onionV2
    have four : byte.toNat ≠ 4 := ne .onionV3
    show byte.toNat < 1 ∨ 4 < byte.toNat
    omega
  · intro outside
    cases found : ofDescriptor? byte with
    | none => rfl
    | some kind =>
        rw [ofDescriptor?_eq_some_iff.1 found] at outside
        cases kind <;> revert outside <;> decide

/-- Addresses are spelled by their wire forms, `addresses.map encode`, and by nothing else. -/
theorem NetAddress.forall₂_spelledBy_iff {addresses : List NetAddress} {words : List Bytes} :
    List.Forall₂ SpelledBy addresses words ↔ words = addresses.map encode := by
  have same : SpelledBy = fun address word => encode address = word := by
    funext address word
    exact propext (spelledBy_iff.trans eq_comm)
  rw [same, ← List.forall₂_map_left_iff, List.forall₂_eq_eq_eq]
  exact eq_comm

namespace AddressList

/-! ## Blocks -/

/-- A block that is `words.flatten ++ tail`, the words of some addresses, one after the other, and a
tail that is empty or starts with a byte that names no kind of address. -/
structure Divides (block : Bytes) (addresses : List NetAddress) (tail : Bytes) : Prop where
  /-- What stands before the tail spells the addresses. -/
  spelled : ∃ words, List.Forall₂ NetAddress.SpelledBy addresses words ∧
    block = words.flatten ++ tail
  /-- No address starts with the tail. -/
  foreign : ∀ byte ∈ tail.head?, byte < 1 ∨ 4 < byte

/-- A block in which, after some complete addresses, a known descriptor stands before too few
bytes: its kind needs `needed` of them, and `available` are left. -/
def CutShort (block : Bytes) (needed available : Nat) : Prop :=
  ∃ addresses words, ∃ (kind : AddressKind) (part : Bytes),
    List.Forall₂ NetAddress.SpelledBy addresses words ∧
      block = words.flatten ++ kind.descriptor :: part ∧ part.length < kind.payloadWidth ∧
        needed = kind.payloadWidth ∧ available = part.length

variable {done addresses addresses' : List NetAddress} {block rest tail tail' : Bytes}
  {needed available : Nat}

/-- A block divides when its addresses are written in front of its tail: `addresses.flatMap
NetAddress.encode ++ tail`. -/
theorem divides_iff :
    Divides block addresses tail ↔
      block = addresses.flatMap NetAddress.encode ++ tail ∧
        ∀ byte ∈ tail.head?, AddressKind.ofDescriptor? byte = none := by
  constructor
  · rintro ⟨⟨words, spelled, whole⟩, foreign⟩
    rw [NetAddress.forall₂_spelledBy_iff.1 spelled, ← List.flatMap_def] at whole
    exact ⟨whole, fun byte first => AddressKind.ofDescriptor?_eq_none_iff.2 (foreign byte first)⟩
  · rintro ⟨whole, foreign⟩
    refine ⟨⟨_, NetAddress.forall₂_spelledBy_iff.2 rfl, ?_⟩, fun byte first =>
      AddressKind.ofDescriptor?_eq_none_iff.1 (foreign byte first)⟩
    rw [whole, List.flatMap_def]

/-- A block is cut short when its addresses are written in front of the incomplete one. -/
theorem cutShort_iff :
    CutShort block needed available ↔
      ∃ (addresses : List NetAddress) (kind : AddressKind) (part : Bytes),
        block = addresses.flatMap NetAddress.encode ++ kind.descriptor :: part ∧
          part.length < kind.payloadWidth ∧ needed = kind.payloadWidth ∧
            available = part.length := by
  constructor
  · rintro ⟨addresses, words, kind, part, spelled, whole, short⟩
    rw [NetAddress.forall₂_spelledBy_iff.1 spelled, ← List.flatMap_def] at whole
    exact ⟨addresses, kind, part, whole, short⟩
  · rintro ⟨addresses, kind, part, whole, short⟩
    refine ⟨addresses, _, kind, part, NetAddress.forall₂_spelledBy_iff.2 rfl, ?_, short⟩
    rw [whole, List.flatMap_def]

/-- What is cut short lacks a byte at least: `available < needed`. -/
theorem CutShort.lt (cut : CutShort block needed available) : available < needed := by
  obtain ⟨_, _, _, _, -, -, short, rfl, rfl⟩ := cut
  exact short

/-! ## Reading blocks -/

/-- **A block is read when it divides**: `parseBlock [] block = .ok list` for `Divides block
list.addresses list.unparsed`. -/
theorem parseBlock_eq_ok_iff_divides {list : AddressList} :
    parseBlock [] block = .ok list ↔ Divides block list.addresses list.unparsed := by
  rw [parseBlock_eq_ok_iff, divides_iff, ← addressBlock_iff]
  constructor
  · rintro ⟨_, rfl, made⟩
    exact made
  · intro made
    exact ⟨list.addresses, rfl, made⟩

/-- A block divides in one way only: `addresses = addresses'` and `tail = tail'`. -/
theorem Divides.unique (divides : Divides block addresses tail)
    (divides' : Divides block addresses' tail') : addresses = addresses' ∧ tail = tail' := by
  let list : AddressList := ⟨addresses, tail, (divides_iff.1 divides).2⟩
  let list' : AddressList := ⟨addresses', tail', (divides_iff.1 divides').2⟩
  have run : parseBlock [] block = .ok list := parseBlock_eq_ok_iff_divides.2 divides
  have run' : parseBlock [] block = .ok list' := parseBlock_eq_ok_iff_divides.2 divides'
  have same : list = list' := Except.ok.inj (run.symm.trans run')
  exact ⟨congrArg AddressList.addresses same, congrArg AddressList.unparsed same⟩

/-- One turn of the loop takes a complete address, `address.encode`. -/
theorem parseBlock_encode (address : NetAddress) :
    parseBlock done (address.encode ++ rest) = parseBlock (address :: done) rest := by
  have known : AddressKind.ofDescriptor? address.kind.descriptor = some address.kind :=
    AddressKind.ofDescriptor?_eq_some_iff.2 rfl
  have taken := take_append ⟨address.payload, address.length_payload⟩ rest
  have read : NetAddress.decoderAfter address.kind.descriptor address.payload = .ok address [] := by
    rw [NetAddress.decoderAfter_of_known known]
    exact (NetAddress.payloadDecoder_eq_ok_iff address.length_payload).2 ⟨rfl, rfl, rfl⟩
  rw [NetAddress.encode, List.cons_append, parseBlock]
  split
  · rename_i foreign
    rw [known] at foreign
    cases foreign
  · rename_i kind found
    rw [known] at found
    obtain rfl := Option.some.inj found
    simp only [taken, read, List.drop_left' address.length_payload]

/-- The turns of the loop take all complete addresses, `addresses.flatMap NetAddress.encode`. -/
theorem parseBlock_flatMap_encode :
    parseBlock done (addresses.flatMap NetAddress.encode ++ rest) =
      parseBlock (addresses.reverse ++ done) rest := by
  induction addresses generalizing done with
  | nil => rfl
  | cons address addresses ih =>
      rw [List.flatMap_cons, List.append_assoc, parseBlock_encode, ih, List.reverse_cons,
        List.append_assoc]
      rfl

/-- The loop fails at a known descriptor with too few bytes after it, as `.truncated
kind.payloadWidth part.length`. -/
theorem parseBlock_of_short {kind : AddressKind} {part : Bytes}
    (short : part.length < kind.payloadWidth) :
    parseBlock done (kind.descriptor :: part) =
      .error (.truncated kind.payloadWidth part.length) := by
  have known : AddressKind.ofDescriptor? kind.descriptor = some kind :=
    AddressKind.ofDescriptor?_eq_some_iff.2 rfl
  rw [parseBlock]
  split
  · rename_i foreign
    rw [known] at foreign
    cases foreign
  · rename_i kind' found
    rw [known] at found
    obtain rfl := Option.some.inj found
    simp only [take_of_length_lt short]

/-- **The only blocks that are refused are those cut short**: `cause = .truncated needed available`
with `CutShort block needed available`. -/
theorem parseBlock_eq_error_iff {cause : CodecError} :
    parseBlock done block = .error cause ↔
      ∃ needed available, cause = .truncated needed available ∧
        CutShort block needed available := by
  constructor
  · fun_induction parseBlock done block with
    | case1 done => intro failed; cases failed
    | case2 done descriptor rest foreign => intro failed; cases failed
    | case3 done descriptor rest kind found cause' left lacks =>
        intro failed
        obtain rfl := AddressKind.ofDescriptor?_eq_some_iff.1 found
        have short : rest.length < kind.payloadWidth := by
          by_contra enough
          rw [take_of_le_length (Nat.le_of_not_lt enough)] at lacks
          cases lacks
        rw [take_of_length_lt short] at lacks
        cases lacks
        cases failed
        exact ⟨_, _, rfl, cutShort_iff.2 ⟨[], kind, rest, rfl, short, rfl, rfl⟩⟩
    | case4 done descriptor rest kind found payload left taken cause' left' failed =>
        -- A payload of the right width is always that of an address.
        obtain ⟨address, same, whole⟩ := AddressKind.length_eq_payloadWidth_iff.1 payload.2
        rw [NetAddress.decoderAfter_of_known found,
          (NetAddress.payloadDecoder_eq_ok_iff payload.2).2 ⟨same, whole, rfl⟩] at failed
        cases failed
    | case5 done descriptor rest kind found payload left taken address left' read ih =>
        intro failed
        obtain rfl := AddressKind.ofDescriptor?_eq_some_iff.1 found
        rw [NetAddress.decoderAfter_of_known found] at read
        obtain ⟨rfl, whole, -⟩ := (NetAddress.payloadDecoder_eq_ok_iff payload.2).1 read
        obtain ⟨_, rfl, rfl⟩ := (accepts_take _ _ _ _).1 taken
        rw [List.drop_left' payload.2] at ih failed
        obtain ⟨needed, available, same, cut⟩ := ih failed
        obtain ⟨addresses, kind, part, rfl, short⟩ := cutShort_iff.1 cut
        refine ⟨needed, available, same, cutShort_iff.2 ⟨address :: addresses, kind, part, ?_,
          short⟩⟩
        rw [whole, List.flatMap_cons, List.append_assoc]
        rfl
  · rintro ⟨needed, available, rfl, cut⟩
    obtain ⟨addresses, kind, part, rfl, short, rfl, rfl⟩ := cutShort_iff.1 cut
    rw [parseBlock_flatMap_encode, parseBlock_of_short short]

/-! ## Reading lists -/

/-- What is missing where a list cannot be read. -/
inductive Lacks : Bytes → (needed available : Nat) → Prop where
  /-- The two bytes of the length. -/
  | size {source : Bytes} : source.length < 2 → Lacks source 2 source.length
  /-- As many bytes as the length says. -/
  | block {size part : Bytes} {count : Nat} :
      Spells 2 size count → part.length < count → Lacks (size ++ part) count part.length
  /-- The rest of an address in the block. -/
  | address {size block rest : Bytes} {needed available : Nat} :
      Spells 2 size block.length → CutShort block needed available →
      Lacks (size ++ (block ++ rest)) needed available

/-- What is missing is a byte at least: `available < needed`. -/
theorem Lacks.lt {source : Bytes} (lacks : Lacks source needed available) :
    available < needed := by
  cases lacks with
  | size short => exact short
  | block spelled short => exact short
  | address spelled cut => exact cut.lt

/-- A list is read from its block, once all of it is there. -/
theorem decoder_of_bytes {source left : Bytes} (run : bytes source = .ok block left) :
    decoder source =
      match parseBlock [] block with
      | .error cause => .error cause left
      | .ok list => .ok list left := by
  rw [decoder, bind_of_ok run]
  cases parseBlock [] block with
  | error cause => rfl
  | ok list => rfl

/-- A block headed by its length, `size ++ (block ++ rest)`, is read from what follows the
length. -/
theorem decoder_append {size : Bytes} (spelled : Spells 2 size block.length) :
    decoder (size ++ (block ++ rest)) =
      match parseBlock [] block with
      | .error cause => .error cause rest
      | .ok list => .ok list rest := by
  have run := accepts_bytes.append (⟨size, spelled, rfl⟩ : Headed block.length block _) rest
  rw [List.append_assoc] at run
  exact decoder_of_bytes run

/-- **A list cannot be read only for want of bytes**: `cause = .truncated needed available` with
`Lacks source needed available`. -/
theorem lacks_of_decoder_eq_error {source left : Bytes} {cause : CodecError}
    (failed : decoder source = .error cause left) :
    ∃ needed available, cause = .truncated needed available ∧ Lacks source needed available := by
  rcases bytes_cases source with ⟨short, run⟩ | ⟨size, part, count, rfl, spelled, short, run⟩ |
    ⟨size, block, rest, rfl, spelled, run⟩
  · rw [decoder, bind_of_error run] at failed
    cases failed
    exact ⟨_, _, rfl, .size short⟩
  · rw [decoder, bind_of_error run] at failed
    cases failed
    exact ⟨_, _, rfl, .block spelled short⟩
  · rw [decoder_of_bytes run] at failed
    cases parsed : parseBlock [] block with
    | ok list =>
        rw [parsed] at failed
        cases failed
    | error cause' =>
        rw [parsed] at failed
        cases failed
        obtain ⟨needed, available, same, cut⟩ := parseBlock_eq_error_iff.1 parsed
        exact ⟨needed, available, same, .address spelled cut⟩

/-- A list with `list.blockLength ≤ 65535` is read back from its wire form. -/
theorem decoder_encode {list : AddressList} (fits : list.blockLength ≤ 65535) :
    decoder (list.encode ++ rest) = .ok list rest := by
  have denoted : FieldType.Denotes .addresses list.encode list :=
    @FieldType.denotes_encode .addresses list fits trivial
  exact accepts.append denoted rest

/-- **Lists of addresses are read as they divide, refused only for want of bytes, and keep their
tail when they are edited.** A list is read from `size ++ (block ++ rest)` exactly if the block
`Divides`, in the one way that it does, and it is written back as `size ++ block`. Every error is a
`truncated needed available` with `available < needed`. With other addresses, as far as their length
can be said, the list is read back, and `list.unparsed` still comes last. -/
theorem decoder_divides_and_edits :
    (∀ size block rest, Spells 2 size block.length →
      (∀ list left, decoder (size ++ (block ++ rest)) = .ok list left ↔
        Divides block list.addresses list.unparsed ∧ left = rest) ∧
      ((∃ list left, decoder (size ++ (block ++ rest)) = .ok list left) ↔
        ∃ addresses tail, Divides block addresses tail) ∧
      (∀ addresses tail addresses' tail', Divides block addresses tail →
        Divides block addresses' tail' → addresses = addresses' ∧ tail = tail') ∧
      (∀ list left, decoder (size ++ (block ++ rest)) = .ok list left →
        list.encode = size ++ block) ∧
      ∀ cause left, decoder (size ++ (block ++ rest)) = .error cause left ↔
        (∃ needed available, cause = .truncated needed available ∧
          CutShort block needed available) ∧ left = rest) ∧
    (∀ source cause left, decoder source = .error cause left →
      ∃ needed available, cause = .truncated needed available ∧
        Lacks source needed available ∧ available < needed) ∧
    (∀ source descriptor left,
      decoder source ≠ .error (.invalid (.unknownAddress descriptor)) left) ∧
    ∀ source list left, decoder source = .ok list left →
      ∀ addresses rest, (list.withAddresses addresses).blockLength ≤ 65535 →
        decoder ((list.withAddresses addresses).encode ++ rest) =
          .ok (list.withAddresses addresses) rest ∧
        (list.withAddresses addresses).addresses = addresses ∧
        (list.withAddresses addresses).unparsed = list.unparsed ∧
        ∃ front, (list.withAddresses addresses).encode = front ++ list.unparsed := by
  refine ⟨?_, ?_, ?_, ?_⟩
  · intro size block rest spelled
    have succeeds (list : AddressList) (left : Bytes) :
        decoder (size ++ (block ++ rest)) = .ok list left ↔
          Divides block list.addresses list.unparsed ∧ left = rest := by
      rw [decoder_append spelled, ← parseBlock_eq_ok_iff_divides]
      cases parseBlock [] block with
      | error cause => simp
      | ok other => simp [eq_comm]
    refine ⟨succeeds, ?_, ?_, ?_, ?_⟩
    · constructor
      · rintro ⟨list, left, run⟩
        exact ⟨_, _, ((succeeds list left).1 run).1⟩
      · rintro ⟨addresses, tail, divides⟩
        exact ⟨⟨addresses, tail, (divides_iff.1 divides).2⟩, rest, (succeeds _ _).2 ⟨divides, rfl⟩⟩
    · intro addresses tail addresses' tail' divides divides'
      exact divides.unique divides'
    · intro list left run
      have whole := (divides_iff.1 ((succeeds list left).1 run).1).1
      rw [encode, List.append_assoc, ← whole, ← list.length_block, ← whole]
      exact congrArg (· ++ block) (spells_iff.1 spelled).1.symm
    · intro cause left
      rw [decoder_append spelled, ← @parseBlock_eq_error_iff []]
      cases parseBlock [] block with
      | error other => simp [eq_comm]
      | ok list => simp
  · intro source cause left failed
    obtain ⟨needed, available, same, lacks⟩ := lacks_of_decoder_eq_error failed
    exact ⟨needed, available, same, lacks, lacks.lt⟩
  · intro source descriptor left failed
    obtain ⟨needed, available, same, -⟩ := lacks_of_decoder_eq_error failed
    cases same
  · intro source list left run addresses rest fits
    exact ⟨decoder_encode fits, rfl, rfl, _, rfl⟩

end AddressList

end PeerWire
