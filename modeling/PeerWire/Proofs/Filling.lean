import PeerWire.Proofs.Primitives
import PeerWire.Proofs.RoundTrip

/-! # Messages written into a buffer

A message is put into a buffer part after part: its fields as numbers, arrays and lengths cut down
to two bytes, then what comes after them. How many bytes that will be is announced without writing
them, from the width that an address descriptor promises or that one signature has. The buffer grows
by exactly as many bytes, whether or not the lengths among them can be said in two bytes, and keeps
what it held (`Message.put_as_announced`). -/

namespace PeerWire

/-! ## Putting bytes into a buffer -/

namespace Raw

variable {ε α : Type} {raw next : Raw ε Unit} {bytes more : Bytes}

/-- Puts bytes at the end of a buffer: `buffer ++ bytes`. -/
def putSlice (bytes : Bytes) : Raw ε Unit := fun buffer => some (.ok (), buffer ++ bytes)

/-- Puts a number of `width` bytes, most significant byte first. -/
def putUint (width value : Nat) : Raw ε Unit := putSlice (bigEndian width value)

/-- Puts a length or count in two bytes, as far as they go. -/
def putLength (count : Nat) : Raw ε Unit := putUint 2 (UInt16.ofNat count).toNat

/-- Puts items after their count. -/
def putCounted (put : α → Raw ε Unit) (items : List α) : Raw ε Unit := do
  putLength items.length
  items.forM put

/-- A run that gives no error on any buffer and leaves `buffer ++ bytes`. -/
def Appends (raw : Raw ε Unit) (bytes : Bytes) : Prop :=
  ∀ buffer, raw.perform buffer = some (.ok (), buffer ++ bytes)

/-- Doing nothing appends nothing. -/
theorem appends_pure : (pure () : Raw ε Unit).Appends [] := by
  intro buffer
  rw [List.append_nil]
  rfl

/-- **What is appended by one part after another** stands one after the other: `bytes ++ more`. -/
theorem Appends.bind (first : raw.Appends bytes) (second : next.Appends more) :
    (raw >>= fun _ => next).Appends (bytes ++ more) := by
  intro buffer
  rw [perform_bind_of_ok _ (first buffer), second, List.append_assoc]

/-- Bytes are appended as they are. -/
theorem appends_putSlice (bytes : Bytes) : (putSlice bytes : Raw ε Unit).Appends bytes :=
  fun _ => rfl

/-- A number is appended in its wire form, `bigEndian width value`. -/
theorem appends_putUint (width value : Nat) :
    (putUint width value : Raw ε Unit).Appends (bigEndian width value) :=
  appends_putSlice _

/-- A length is appended in its wire form, `Wire.length count`, which is also that of the number cut
down. -/
theorem appends_putLength (count : Nat) :
    (putLength count : Raw ε Unit).Appends (Wire.length count) := by
  -- Both drop what is beyond two bytes, the one before writing and the other in writing.
  have cut : bigEndian 2 (UInt16.ofNat count).toNat = Wire.length count := by
    rw [UInt16.toNat_ofNat']
    exact bigEndian_mod 2 count
  rw [← cut]
  exact appends_putUint _ _

/-- Of a length that two bytes cannot say only the rest is appended. -/
example : (putLength 65539 : Raw Empty Unit).perform [7] = some (.ok (), [7, 0, 3]) := by
  decide

/-- Items are appended one after the other: `items.flatMap written`. -/
theorem Appends.forM {put : α → Raw ε Unit} {written : α → Bytes}
    (each : ∀ item, (put item).Appends (written item)) (items : List α) :
    (items.forM put).Appends (items.flatMap written) := by
  induction items with
  | nil => exact appends_pure
  | cons item items ih => exact (each item).bind ih

/-- Counted items are appended in their wire form. -/
theorem Appends.counted {put : α → Raw ε Unit} {written : α → Bytes}
    (each : ∀ item, (put item).Appends (written item)) (items : List α) :
    (putCounted put items).Appends (Wire.counted written items) :=
  (appends_putLength _).bind (Appends.forM each items)

end Raw

open Raw

variable {ε : Type}

/-! ## Addresses -/

/-- Puts a host and its port. -/
def NetAddress.putHostAndPort (host : Bytes) (port : UInt16) : Raw ε Unit := do
  putSlice host
  putUint 2 port.toNat

/-- A host is appended as it is, and its port in two bytes. -/
theorem NetAddress.appends_putHostAndPort (host : Bytes) (port : UInt16) :
    (putHostAndPort host port : Raw ε Unit).Appends (host ++ bigEndian 2 port.toNat) :=
  (appends_putSlice _).bind (appends_putUint _ _)

/-- Puts an address: its descriptor, and what its kind is made of. -/
def NetAddress.put (address : NetAddress) : Raw ε Unit := do
  putUint 1 address.kind.descriptor.toNat
  match address with
  | .ipv4 host port => putHostAndPort host.1 port
  | .ipv6 host port => putHostAndPort host.1 port
  | .onionV2 service port => putHostAndPort service.1 port
  | .onionV3 key checksum version port => do
      putSlice key.1
      putUint 2 checksum.toNat
      putUint 1 version.toNat
      putUint 2 port.toNat

/-- An address is appended in its wire form, `address.encode`. -/
theorem NetAddress.appends_put (address : NetAddress) :
    (address.put : Raw ε Unit).Appends address.encode := by
  have descriptor : address.encode =
      bigEndian 1 address.kind.descriptor.toNat ++ address.payload := by
    simp [NetAddress.encode, bigEndian]
  rw [descriptor]
  -- Only the third version of onion services has more than a host and a port.
  cases address with
  | ipv4 host port | ipv6 host port | onionV2 host port =>
      exact (appends_putUint _ _).bind (appends_putHostAndPort _ _)
  | onionV3 key checksum version port =>
      rw [NetAddress.payload, List.append_assoc, List.append_assoc]
      exact (appends_putUint _ _).bind ((appends_putSlice _).bind ((appends_putUint _ _).bind
        ((appends_putUint _ _).bind (appends_putUint _ _))))

/-- Puts a block of addresses after its length, and what is not understood after them. -/
def AddressList.put (list : AddressList) : Raw ε Unit := do
  putLength list.blockLength
  list.addresses.forM NetAddress.put
  putSlice list.unparsed

/-- A block of addresses is appended in its wire form. -/
theorem AddressList.appends_put (list : AddressList) :
    (list.put : Raw ε Unit).Appends list.encode := by
  rw [AddressList.encode, List.append_assoc]
  exact (appends_putLength _).bind
    ((Appends.forM NetAddress.appends_put _).bind (appends_putSlice _))

/-! ## Fields -/

/-- Puts a feature vector byte by byte, the highest first. -/
def FeatureVector.put (vector : FeatureVector) : Raw ε Unit := do
  putLength vector.octets.length
  vector.octets.reverse.forM fun octet => putUint 1 octet.toNat

/-- A feature vector is appended in its wire form. -/
theorem FeatureVector.appends_put (vector : FeatureVector) :
    (vector.put : Raw ε Unit).Appends vector.encode := by
  have single (octet : UInt8) : (putUint 1 octet.toNat : Raw ε Unit).Appends [octet] := by
    have form : bigEndian 1 octet.toNat = [octet] := by simp [bigEndian]
    rw [← form]
    exact appends_putUint _ _
  have octets := Appends.forM single vector.octets.reverse
  rw [List.flatMap_singleton'] at octets
  exact (appends_putLength _).bind octets

/-- Puts a list of short channel ids: the length, the encoding and the payload. -/
def IdList.put (list : IdList) : Raw ε Unit := do
  putLength (1 + list.payload.length)
  putUint 1 list.encoding.toByte.toNat
  putSlice list.payload

/-- A list of short channel ids is appended in its wire form. -/
theorem IdList.appends_put (list : IdList) : (list.put : Raw ε Unit).Appends list.encode := by
  have form : list.encode = Wire.length (1 + list.payload.length) ++
      (bigEndian 1 list.encoding.toByte.toNat ++ list.payload) := by
    simp [IdList.encode, bigEndian]
  rw [form]
  exact (appends_putLength _).bind ((appends_putUint _ _).bind (appends_putSlice _))

/-- Puts a field of a type. -/
def FieldType.put : (type : FieldType) → type.Value → Raw ε Unit
  | .u8, value => putUint 1 value.toNat
  | .u16, value => putUint 2 value.toNat
  | .u32, value => putUint 4 value.toNat
  | .u64, value => putUint 8 value.toNat
  | .flag, value => putUint 1 value.toNat
  | .milliSatoshi, amount => putUint 8 amount.value.toNat
  | .satoshi, amount => putUint 8 amount.value.toNat
  | .feeRate, rate => putUint 4 rate.value.toNat
  | .blob _, content => putSlice content.bytes
  | .bytes, content => do
      putLength content.length
      putSlice content
  | .features, vector => vector.put
  | .signatures, list => putCounted (fun signature => putSlice signature.bytes) list
  | .shortChannelId, id => putUint 8 id.packed.toNat
  | .addresses, list => list.put
  | .idList, list => list.put

/-- **A field is appended in its wire form**, `type.encode value`, whatever its type and value. -/
theorem FieldType.appends_put (type : FieldType) (value : type.Value) :
    (type.put value : Raw ε Unit).Appends (type.encode value) := by
  cases type with
  | u8 | u16 | u32 | u64 | milliSatoshi | satoshi | feeRate | shortChannelId =>
      exact appends_putUint _ _
  | flag =>
      cases value with
      | false => exact appends_putUint 1 0
      | true => exact appends_putUint 1 1
  | blob kind => exact appends_putSlice _
  | bytes => exact (appends_putLength _).bind (appends_putSlice _)
  | features => exact FeatureVector.appends_put _
  | signatures => exact Appends.counted (fun _ => appends_putSlice _) _
  | addresses => exact AddressList.appends_put _
  | idList => exact IdList.appends_put _

/-- Puts fields one after the other. -/
def Values.put : (fields : List Field) → Values fields → Raw ε Unit
  | [], () => pure ()
  | field :: fields, (value, values) => do
      field.type.put value
      put fields values

/-- Fields are appended in their wire forms: `Values.encode fields values`. -/
theorem Values.appends_put (fields : List Field) (values : Values fields) :
    (Values.put fields values : Raw ε Unit).Appends (Values.encode fields values) := by
  -- The fields declare which values there are, so that the induction is on them.
  induction fields with
  | nil => exact appends_pure
  | cons field fields ih => exact (field.type.appends_put values.1).bind (ih values.2)

/-! ## Messages -/

namespace Message

/-- Puts the bytes after the tag: the declared fields and what came after them. -/
def putBody : Message → Raw ε Unit
  | .known kind contents extra => do
      Values.put kind.fields contents
      putSlice extra
  | .unknown _ body => putSlice body

/-- Puts the tag and the bytes after it. -/
def putBytes (message : Message) : Raw ε Unit := do
  putUint 2 message.tag.toNat
  message.putBody

/-- A message appends its body, `message.body`. -/
theorem appends_putBody (message : Message) :
    (message.putBody : Raw ε Unit).Appends message.body := by
  cases message with
  | known kind contents extra => exact (Values.appends_put _ _).bind (appends_putSlice _)
  | unknown tag body => exact appends_putSlice _

/-- A message has as many bytes after its tag as it announces: `message.bodyLength`. -/
theorem length_body (message : Message) : message.body.length = message.bodyLength := by
  cases message with
  | known kind contents extra =>
      rw [body, bodyLength, List.length_append, Values.length_encode]
  | unknown tag body => rfl

/-- **A message takes the room that it announces.** Its body is put behind whatever stands in the
buffer already, which stays, as `buffer ++ message.body`, and the buffer grows by
`message.bodyLength`. By itself the message is its tag, highest byte first, and these very bytes.
Nothing is asked of the lengths in the message: they may be more than two bytes can say. -/
theorem put_as_announced (message : Message) (buffer : Bytes) :
    message.putBody.perform buffer =
      some ((.ok () : Except ε Unit), message.appendBody buffer) ∧
    message.appendBody buffer = buffer ++ message.body ∧
    (message.appendBody buffer).length = buffer.length + message.bodyLength ∧
    message.putBytes.perform buffer = some ((.ok () : Except ε Unit), buffer ++ message.toBytes) ∧
    message.toBytes = bigEndian 2 message.tag.toNat ++ message.body := by
  have tagged : (message.putBytes : Raw ε Unit).Appends message.toBytes :=
    (appends_putUint _ _).bind message.appends_putBody
  refine ⟨message.appends_putBody buffer, rfl, ?_, tagged buffer, rfl⟩
  rw [appendBody, List.length_append, length_body]

end Message

end PeerWire
