import PeerWire.Codec.Error

/-! # Decoders

A decoder takes a field off the front of a byte string. It says which bytes are left also when it
fails, since a failed field keeps whatever it had taken. Every decoder here takes its bytes
through `Decoder.take`, which checks that they are there. -/

namespace PeerWire

/-- Takes a value off the front of a byte string, or fails; either way some bytes are left. -/
abbrev Decoder := EStateM CodecError Bytes

namespace Decoder

/-- Takes exactly `count` bytes. -/
def take (count : Nat) : Decoder (Octets count) := fun source =>
  let front := source.take count
  if h : front.length = count then .ok ⟨front, h⟩ (source.drop count)
  else .error (.truncated count source.length) source

/-- Enough bytes, `front.1 ++ rest`: they are taken. -/
theorem take_append {count : Nat} (front : Octets count) (rest : Bytes) :
    take count (front.1 ++ rest) = .ok front rest := by
  obtain ⟨front, h⟩ := front
  subst h
  simp [take]

/-- Too few bytes, `source.length < count`: none is taken. -/
theorem take_of_length_lt {count : Nat} {source : Bytes} (h : source.length < count) :
    take count source = .error (.truncated count source.length) source := by
  have : ¬min count source.length = count := by omega
  simp [take, this]

/-- What `take` takes and leaves. -/
theorem take_of_le_length {count : Nat} {source : Bytes} (h : count ≤ source.length) :
    take count source =
      .ok ⟨source.take count, List.length_take_of_le h⟩ (source.drop count) := by
  simp [take, h]

/-- A number of `width` bytes. -/
def number (width : Nat) : Decoder Nat := do
  let bytes ← take width
  return ofBigEndian bytes.1

/-- A one-byte number. -/
def u8 : Decoder UInt8 := UInt8.ofNat <$> number 1

/-- A two-byte number. -/
def u16 : Decoder UInt16 := UInt16.ofNat <$> number 2

/-- A four-byte number. -/
def u32 : Decoder UInt32 := UInt32.ofNat <$> number 4

/-- An eight-byte number. -/
def u64 : Decoder UInt64 := UInt64.ofNat <$> number 8

/-- Two bytes are enough for a two-byte number. -/
theorem u16_cons_cons (high low : UInt8) (rest : Bytes) :
    u16 (high :: low :: rest) = .ok (UInt16.ofNat (ofBigEndian [high, low])) rest := rfl

/-- A flag byte, 0 or 1. -/
def flag : Decoder Bool := do
  let byte ← u8
  if byte = 0 then return false
  else if byte = 1 then return true
  else throw (.invalid (.flag byte))

/-- A byte string after its two-byte length. -/
def bytes : Decoder Bytes := do
  let length ← u16
  let front ← take length.toNat
  return front.1

/-- Whatever is left. -/
def rest : Decoder Bytes := fun source => .ok source []

/-- Fails, taking nothing, unless `count` bytes are left. -/
def ensure (count : Nat) : Decoder Unit := fun source =>
  if (source.take count).length = count then .ok () source
  else .error (.truncated count source.length) source

/-- The same item `count` more times; `done` holds the items taken so far, last one first. -/
def repeatItem (item : Decoder α) : (count : Nat) → (done : List α) → Decoder (List α)
  | 0, done => return done.reverse
  | count + 1, done => do
      let value ← item
      repeatItem item count (value :: done)

/-- Items after their two-byte count. That all of them are there is checked first, by the width
of one. -/
def counted (width : Nat) (item : Decoder α) : Decoder (List α) := do
  let count ← u16
  ensure (count.toNat * width)
  repeatItem item count.toNat []

/-- The items that fill the next `length` bytes. -/
def records (length width : Nat) (item : Decoder α) : Decoder (List α) := do
  if length % width ≠ 0 then throw (.misaligned length width)
  ensure length
  repeatItem item (length / width) []

/-- Runs a decoder on a byte string of its own, whatever it leaves there. -/
def within (source : Bytes) (decoder : Decoder α) : Decoder α := fun outer =>
  match decoder source with
  | .ok value _ => .ok value outer
  | .error error _ => .error error outer

end Decoder

/-! ## Writing -/

namespace Wire

/-- The two-byte form of a length or count, modulo 65536: `bigEndian 2 count`. -/
def length (count : Nat) : Bytes := bigEndian 2 count

/-- A flag byte. -/
def flag (value : Bool) : Bytes := [if value then 1 else 0]

/-- A byte string after its two-byte length. -/
def bytes (content : Bytes) : Bytes := length content.length ++ content

/-- Items after their two-byte count. -/
def counted (item : α → Bytes) (items : List α) : Bytes :=
  length items.length ++ items.flatMap item

/-- The three low-order bytes of a number. -/
def u24 (value : UInt32) : Bytes := bigEndian 3 value.toNat

end Wire

end PeerWire
