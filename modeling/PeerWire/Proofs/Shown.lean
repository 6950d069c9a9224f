import PeerWire.Message.Basic
import PeerWire.Proofs.ChannelText
import PeerWire.Proofs.FeatureSets
import PeerWire.Proofs.HexDigits

/-! # What is shown of a message

A report shows a message as a JSON value. `Message.Shows message json` says what stands in it: the
name of the message, under it every field by its name and in wire order, and the bytes after them.
Byte strings and channel ids are read back from their texts, features are their bits in ascending
order, and an address is written as one of its texts (`NetAddress.Writes`). What a report makes of a
message is such a value: `message.Shows message.toJson` (`Message.shows_toJson`). -/

namespace PeerWire

/-! ## Texts of addresses -/

namespace NetAddress

/-- Numbers in decimal with dots between them, as in `127.0.0.1`. -/
def dotted (bytes : Bytes) : List Char :=
  ['.'].intercalate (bytes.map fun byte => Nat.toDigits 10 byte.toNat)

/-- Numbers in hexadecimal with colons between them, as in `2001:db8`. -/
def colons (words : List Nat) : List Char := [':'].intercalate (words.map (Nat.toDigits 16))

/-- The texts of a version 6 host, given as two-byte numbers. -/
inductive WritesHost : List Nat → List Char → Prop where
  /-- All numbers are written. -/
  | full (words : List Nat) : WritesHost words (colons words)
  /-- A run of zeros is left out. -/
  | short (front back : List Nat) (count : Nat) : 1 < count →
      WritesHost (front ++ List.replicate count 0 ++ back)
        (colons front ++ [':', ':'] ++ colons back)
  /-- A version 4 host is written as such. -/
  | embedded (first second third fourth : UInt8) :
      WritesHost [0, 0, 0, 0, 0, 0xFFFF, first.toNat * 256 + second.toNat,
          third.toNat * 256 + fourth.toNat]
        ("::ffff:".toList ++ dotted [first, second, third, fourth])

/-- The texts of an address. -/
inductive Writes : NetAddress → List Char → Prop where
  /-- A host of version 4, and a port. -/
  | ipv4 (host : Octets 4) (port : UInt16) :
      Writes (.ipv4 host port) (dotted host.1 ++ ':' :: Nat.toDigits 10 port.toNat)
  /-- A host of version 6 between brackets, and a port. -/
  | ipv6 {host : Octets 16} {words : List Nat} {text : List Char} (port : UInt16) :
      (∀ word ∈ words, word < 65536) → words.flatMap (bigEndian 2) = host.1 →
      WritesHost words text →
      Writes (.ipv6 host port) ('[' :: text ++ ']' :: ':' :: Nat.toDigits 10 port.toNat)
  /-- An onion service of version 2 in digits, and a port. -/
  | onionV2 {service : Octets 10} {digits : String} (port : UInt16) :
      Hex.decode digits = .ok service.1 →
      Writes (.onionV2 service port)
        ("onion-v2:".toList ++ digits.toList ++ ':' :: Nat.toDigits 10 port.toNat)
  /-- The parts of an onion service of version 3, key and checksum in digits, and a port. -/
  | onionV3 {key : Octets 32} {checksum : UInt16} {digits checkDigits : String} (version : UInt8)
      (port : UInt16) :
      Hex.decode digits = .ok key.1 → Hex.decode checkDigits = .ok (bigEndian 2 checksum.toNat) →
      Writes (.onionV3 key checksum version port)
        ("onion-v3:".toList ++ digits.toList ++ ':' :: checkDigits.toList ++
          ':' :: Nat.toDigits 10 version.toNat ++ ':' :: Nat.toDigits 10 port.toNat)

end NetAddress

/-! ## Values that show fields -/

/-- A JSON text that is read as a value: `read text = .ok value`. -/
def Json.Reads {ε α : Type} (read : String → Except ε α) (value : α) (json : Json) : Prop :=
  ∃ text, json = .text text ∧ read text = .ok value

/-- A JSON text that writes an address: `address.Writes text.toList`. -/
def Json.Writes (address : NetAddress) (json : Json) : Prop :=
  ∃ text, json = .text text ∧ address.Writes text.toList

/-- A JSON value shows the value of a field. -/
def FieldType.Shows : (type : FieldType) → type.Value → Json → Prop
  | .u8, value, json => json = .number value.toNat
  | .u16, value, json => json = .number value.toNat
  | .u32, value, json => json = .number value.toNat
  | .u64, value, json => json = .number value.toNat
  | .flag, value, json => json = .flag value
  | .milliSatoshi, amount, json => json = .number amount.value.toNat
  | .satoshi, amount, json => json = .number amount.value.toNat
  | .feeRate, rate, json => json = .number rate.value.toNat
  | .blob _, content, json => json.Reads Hex.decode content.bytes
  | .bytes, content, json => json.Reads Hex.decode content
  | .features, vector, json => ∃ bits : List Nat, json = .array (bits.map .number) ∧
      bits.Pairwise (· < ·) ∧ ∀ bit, bit ∈ bits ↔ vector.contains bit = true
  | .signatures, list, json => ∃ items, json = .array items ∧
      List.Forall₂ (fun signature item => item.Reads Hex.decode signature.bytes) list items
  | .shortChannelId, id, json => json.Reads ShortChannelId.parse id
  | .addresses, list, json => ∃ items rest,
      json = .object [("addresses", .array items), ("unparsed", rest)] ∧
        List.Forall₂ Json.Writes list.addresses items ∧ rest.Reads Hex.decode list.unparsed
  | .idList, list, json => ∃ encoding items,
      json = .object [("encoding", .text encoding), ("ids", .array items)] ∧
        (encoding = "plain" ∧ list.encoding = .plain ∨
          encoding = "zlib" ∧ list.encoding = .zlib) ∧
        List.Forall₂ (Json.Reads ShortChannelId.parse) list.ids items

/-- Named JSON values show the fields of a message, in their order. -/
def Values.Shows : (fields : List Field) → Values fields → List (String × Json) → Prop
  | [], (), shown => shown = []
  | field :: fields, (value, values), shown => ∃ json later,
      shown = (field.name, json) :: later ∧ field.type.Shows value json ∧
        Values.Shows fields values later

/-- A JSON value shows a message. -/
inductive Message.Shows : Message → Json → Prop where
  /-- The declared fields, and then the bytes after them. -/
  | known {kind : MessageKind} {contents : Contents kind} {extra : Bytes}
      {shown : List (String × Json)} {digits : Json} :
      Values.Shows kind.fields contents shown → digits.Reads Hex.decode extra →
      Shows (.known kind contents extra)
        (.object [(kind.name, .object (shown ++ [("extra", digits)]))])
  /-- The tag and the bytes after it. -/
  | unknown {tag : UInt16} {body : Bytes} {digits : Json} : digits.Reads Hex.decode body →
      Shows (.unknown tag body)
        (.object [("unknown", .object [("type_id", .number tag.toNat), ("body", digits)])])

/-! ## Digits that are printed -/

/-- The digits that are printed: `(encode bytes).toList` has those of the halves. -/
theorem Hex.toList_encode_eq (bytes : Bytes) :
    (encode bytes).toList = (halves bytes).map fun value => Nat.digitChar value.toNat := by
  have each : ∀ number : Fin 16, digit (UInt8.ofNat number) = Nat.digitChar number := by decide
  rw [toList_encode]
  refine List.map_congr_left fun value member => ?_
  simpa using each ⟨value.toNat, UInt8.lt_iff_toNat_lt.1 (lt_of_mem_halves member)⟩

/-- Digits that are printed are read back: `Hex.decode (Hex.encode bytes) = .ok bytes`. -/
theorem Hex.decode_encode (bytes : Bytes) : decode (encode bytes) = .ok bytes := by
  have lower : ∀ number : Fin 16, (Nat.digitChar number).toLower = Nat.digitChar number := by
    decide
  rw [decode_eq_ok_iff, toList_encode_eq, List.map_map]
  refine List.map_congr_left fun value member => ?_
  exact lower ⟨value.toNat, UInt8.lt_iff_toNat_lt.1 (lt_of_mem_halves member)⟩

/-- The four digits of a two-byte number are those of its bytes, `bigEndian 2 number.toNat`. -/
theorem Hex.decode_hexWord (number : UInt16) :
    decode (Text.hexWord number.toNat) = .ok (bigEndian 2 number.toNat) := by
  have small : number.toNat < 65536 := number.toNat_lt
  have same : Text.hexWord number.toNat = encode (bigEndian 2 number.toNat) := by
    apply String.toList_inj.1
    rw [Text.toList_hexWord small, toList_encode_eq]
    show _ = [Nat.digitChar _, Nat.digitChar _, Nat.digitChar _, Nat.digitChar _]
    simp only [UInt8.toNat_div, UInt8.toNat_mod, UInt8.toNat_ofNat', UInt8.toNat_ofNat,
      Nat.reducePow, Nat.reduceMod, List.cons.injEq, and_true]
    refine ⟨congrArg _ ?_, congrArg _ ?_, congrArg _ ?_, congrArg _ ?_⟩ <;> omega
  rw [same, decode_encode]

/-! ## Addresses that are printed -/

namespace NetAddress

variable {all : List Nat} {run : Nat × Nat}

/-- A version 6 host is made of its words: `(words host).flatMap (bigEndian 2) = host`. -/
theorem flatMap_words (host : Bytes) (even : 2 ∣ host.length) :
    (words host).flatMap (bigEndian 2) = host ∧ ∀ word ∈ words host, word < 65536 := by
  fun_induction words host with
  | case1 high low rest ih =>
      obtain ⟨back, small⟩ := ih (by simp only [List.length_cons] at even; omega)
      have one := high.toNat_lt
      have two := low.toNat_lt
      rw [List.flatMap_cons, back, List.forall_mem_cons]
      refine ⟨?_, by omega, small⟩
      have whole := bigEndian_ofBigEndian [high, low]
      simpa [ofBigEndian] using congrArg (· ++ rest) whole
  | case2 host short =>
      rcases host with _ | ⟨high, _ | ⟨low, rest⟩⟩
      · simp
      · exact absurd even (show ¬2 ∣ 1 by decide)
      · exact (short high low rest rfl).elim

/-- There are only zeros from place `run.1` on, for `run.2` places. -/
def IsZeroRun (all : List Nat) (run : Nat × Nat) : Prop :=
  ∀ place, run.1 ≤ place → place < run.1 + run.2 → all[place]? = some 0

/-- The run that is found is one of zeros, as the run in progress and the best so far are. -/
theorem isZeroRun_longestZeroRun {position : Nat} {current best : Nat × Nat} {rest : List Nat}
    (ahead : all.drop position = rest) (progress : IsZeroRun all current)
    (reaches : current.2 ≠ 0 → current.1 + current.2 = position) (found : IsZeroRun all best) :
    IsZeroRun all (longestZeroRun position current best rest) := by
  induction rest generalizing position current best with
  | nil => exact found
  | cons word rest ih =>
      have here : all[position]? = some word := by
        rw [← List.head?_drop, ahead, List.head?_cons]
      have next : all.drop (position + 1) = rest := by
        rw [← List.tail_drop, ahead, List.tail_cons]
      rw [longestZeroRun]
      by_cases zero : word = 0
      · subst zero
        -- The run in progress reaches one place further, or begins here.
        obtain ⟨longer, same, zeros, reaches'⟩ : ∃ longer : Nat × Nat,
            (if current.2 = 0 then (position, 1) else (current.1, current.2 + 1)) = longer ∧
              IsZeroRun all longer ∧ longer.1 + longer.2 = position + 1 := by
          by_cases fresh : current.2 = 0
          · refine ⟨_, if_pos fresh, fun place start stop => ?_, rfl⟩
            obtain rfl : place = position := by simp only at start stop; omega
            exact here
          · have ends := reaches fresh
            refine ⟨_, if_neg fresh, fun place start stop => ?_, by simp only; omega⟩
            by_cases last : place = position
            · rw [last, here]
            · exact progress place start (by simp only at stop; omega)
        rw [if_pos rfl, same]
        refine ih next zeros (fun _ => reaches') ?_
        split
        · exact zeros
        · exact found
      · rw [if_neg zero]
        exact ih next (fun place start stop => absurd stop (by simp)) (absurd rfl) found

/-- What is around a run of zeros: `all` is what comes before it, the zeros, and what comes after
it. -/
theorem IsZeroRun.eq_append (zeros : IsZeroRun all run) :
    all = all.take run.1 ++ List.replicate run.2 0 ++ all.drop (run.1 + run.2) := by
  have middle : (all.drop run.1).take run.2 = List.replicate run.2 0 := by
    apply List.ext_getElem?
    intro place
    rw [List.getElem?_take, List.getElem?_drop, List.getElem?_replicate]
    split
    · exact zeros _ (Nat.le_add_right _ _) (by omega)
    · rfl
  rw [← middle, List.append_assoc, ← List.drop_drop, List.take_append_drop, List.take_append_drop]

/-- The characters of numbers with dots between them: `dotted bytes`. -/
theorem toList_dottedDecimal (bytes : Bytes) : (dottedDecimal bytes).toList = dotted bytes := by
  simp [dottedDecimal, dotted, List.map_map, Function.comp_def]

/-- The characters of numbers with colons between them: `colons words`. -/
theorem toList_colonHex (words : List Nat) : (colonHex words).toList = colons words := by
  simp [colonHex, colons, Text.hexNumber, List.map_map, Function.comp_def]

/-- A version 6 host is written as one of its texts: `WritesHost (words host) (ipv6Text host)`. -/
theorem writesHost_ipv6Text (host : Bytes) (long : host.length = 16) :
    WritesHost (words host) (ipv6Text host).toList := by
  rw [ipv6Text]
  split
  · rename_i mapped
    have last : (host.drop 12).length = 4 := by rw [List.length_drop, long]
    obtain ⟨first, second, third, fourth, tail⟩ := List.length_eq_four.1 last
    have whole : host = List.replicate 10 0 ++ [0xFF, 0xFF] ++ [first, second, third, fourth] := by
      rw [← mapped, ← tail, List.take_append_drop]
    rw [String.toList_append, toList_dottedDecimal, tail, whole]
    exact .embedded first second third fourth
  · have none : IsZeroRun (words host) (0, 0) := fun place start stop => absurd stop (by simp)
    have zeros : IsZeroRun (words host) (longestZeroRun 0 (0, 0) (0, 0) (words host)) :=
      isZeroRun_longestZeroRun rfl none (absurd rfl) none
    simp only
    generalize longestZeroRun 0 (0, 0) (0, 0) (words host) = run at zeros ⊢
    split
    · rename_i several
      have short := WritesHost.short ((words host).take run.1)
        ((words host).drop (run.1 + run.2)) run.2 several
      rw [← zeros.eq_append] at short
      simpa [toList_colonHex] using short
    · rw [toList_colonHex]
      exact .full (words host)

/-- **An address is shown as one of its texts**: `address.Writes address.toText.toList`. -/
theorem writes_toText (address : NetAddress) : address.Writes address.toText.toList := by
  have same (text : String) : toString text = text := rfl
  cases address with
  | ipv4 host port =>
      have writes := Writes.ipv4 host port
      simpa [toText, socketText?, toList_dottedDecimal, same] using writes
  | ipv6 host port =>
      obtain ⟨whole, small⟩ := flatMap_words host.1 (by rw [host.2]; decide)
      have writes := Writes.ipv6 port small whole (writesHost_ipv6Text host.1 host.2)
      simpa [toText, socketText?, same] using writes
  | onionV2 service port =>
      have writes := Writes.onionV2 port (Hex.decode_encode service.1)
      simpa [toText, same] using writes
  | onionV3 key checksum version port =>
      have writes := Writes.onionV3 version port (Hex.decode_encode key.1)
        (Hex.decode_hexWord checksum)
      simpa [toText, same] using writes

end NetAddress

/-! ## Messages that are shown -/

/-- Digits show the bytes that they are printed for, as `Hex.decode` reads them. -/
theorem Json.reads_encode (bytes : Bytes) :
    (Json.text (Hex.encode bytes)).Reads Hex.decode bytes :=
  ⟨_, rfl, Hex.decode_encode bytes⟩

/-- Items that are made one by one are related one by one. -/
theorem forall₂_map {α β : Type} {related : α → β → Prop} {form : α → β} {items : List α}
    (each : ∀ item ∈ items, related item (form item)) :
    List.Forall₂ related items (items.map form) :=
  List.forall₂_map_right_iff.2 (List.forall₂_same.2 each)

/-- A field is shown by its value: `type.Shows value (type.toJson value)`. -/
theorem FieldType.shows_toJson (type : FieldType) (value : type.Value) :
    type.Shows value (type.toJson value) := by
  cases type with
  | u8 => rfl
  | u16 => rfl
  | u32 => rfl
  | u64 => rfl
  | flag => rfl
  | milliSatoshi => rfl
  | satoshi => rfl
  | feeRate => rfl
  | blob kind => exact Json.reads_encode value.bytes
  | bytes => exact Json.reads_encode value
  | features => exact ⟨value.bits, rfl, value.pairwise_bits, value.mem_bits⟩
  | signatures =>
      exact ⟨_, rfl, forall₂_map fun signature _ => Json.reads_encode signature.bytes⟩
  | shortChannelId => exact ⟨_, rfl, value.parse_toText⟩
  | addresses =>
      exact ⟨_, _, rfl, forall₂_map fun address _ => ⟨_, rfl, address.writes_toText⟩,
        Json.reads_encode value.unparsed⟩
  | idList =>
      refine ⟨_, _, rfl, ?_, forall₂_map fun id _ => ⟨_, rfl, id.parse_toText⟩⟩
      cases value.encoding with
      | plain => exact .inl ⟨rfl, rfl⟩
      | zlib => exact .inr ⟨rfl, rfl⟩

/-- So are the fields of a message, one after the other. -/
theorem Values.shows_toJson (fields : List Field) (values : Values fields) :
    Values.Shows fields values (Values.toJson fields values) := by
  induction fields with
  | nil => rfl
  | cons field fields ih =>
      exact ⟨_, _, rfl, field.type.shows_toJson values.1, ih values.2⟩

/-- **What a report makes of a message shows it**: `message.Shows message.toJson`. -/
theorem Message.shows_toJson (message : Message) : message.Shows message.toJson := by
  cases message with
  | known kind contents extra =>
      exact .known (Values.shows_toJson kind.fields contents) (Json.reads_encode extra)
  | unknown tag body => exact .unknown (Json.reads_encode body)

end PeerWire
