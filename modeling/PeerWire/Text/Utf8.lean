import PeerWire.Bytes

/-! # UTF-8 with repair

Reading bytes as text when they may not be well-formed: every maximal piece that is no character
becomes one replacement character. -/

namespace PeerWire.Utf8

/-- Shown in place of bytes that are no character: `U+FFFD`. -/
def replacement : Char := '\uFFFD'

/-- A byte that may follow the first byte of a character: `byte &&& 0xC0` is `0x80`. -/
def isContinuation (byte : UInt8) : Bool := byte &&& 0xC0 == 0x80

/-- How a character goes on after its first byte: the number of further bytes, and the range of
the first of them. The ranges leave out overlong forms, surrogates and numbers past the last
character. -/
def sequenceAfter? (first : UInt8) : Option (Nat × UInt8 × UInt8) :=
  if first < 0x80 then some (0, 0x80, 0xBF)
  else if first < 0xC2 then none
  else if first < 0xE0 then some (1, 0x80, 0xBF)
  else if first = 0xE0 then some (2, 0xA0, 0xBF)
  else if first = 0xED then some (2, 0x80, 0x9F)
  else if first < 0xF0 then some (2, 0x80, 0xBF)
  else if first = 0xF0 then some (3, 0x90, 0xBF)
  else if first < 0xF4 then some (3, 0x80, 0xBF)
  else if first = 0xF4 then some (3, 0x80, 0x8F)
  else none

/-- The bits the first byte of a character with `count` further bytes contributes. -/
def leadBits (first : UInt8) : (count : Nat) → Nat
  | 0 => first.toNat
  | 1 => first.toNat % 32
  | 2 => first.toNat % 16
  | _ => first.toNat % 8

/-- Reads the `count` further bytes of a character whose earlier bytes contribute `value`. The
next byte must lie in the given range. Bytes are taken only while they fit; the result is the
character, if it is complete, and the bytes not taken. -/
def continueChar (value : Nat) : (count : Nat) → (low high : UInt8) → Bytes → Option Char × Bytes
  | 0, _, _, rest => (some (Char.ofNat value), rest)
  | _ + 1, _, _, [] => (none, [])
  | count + 1, low, high, byte :: rest =>
      if low ≤ byte && byte ≤ high then
        continueChar (value * 64 + byte.toNat % 64) count 0x80 0xBF rest
      else (none, byte :: rest)

/-- The first character of a nonempty byte string, or `none` for a piece that is no character, and
the bytes after it. -/
def nextChar (first : UInt8) (rest : Bytes) : Option Char × Bytes :=
  match sequenceAfter? first with
  | none => (none, rest)
  | some (count, low, high) => continueChar (leadBits first count) count low high rest

/-- Reading a character leaves no more bytes than there were. -/
theorem length_continueChar_le (value count : Nat) (low high : UInt8) (bytes : Bytes) :
    (continueChar value count low high bytes).2.length ≤ bytes.length := by
  fun_induction continueChar value count low high bytes with
  | case1 => exact Nat.le_refl _
  | case2 => exact Nat.le_refl _
  | case3 value count low high byte rest _ ih => exact Nat.le_succ_of_le ih
  | case4 => exact Nat.le_refl _

/-- Reading the first character leaves no more than the bytes after the first one. -/
theorem length_nextChar_le (first : UInt8) (rest : Bytes) :
    (nextChar first rest).2.length ≤ rest.length := by
  unfold nextChar
  split
  · simp
  · exact length_continueChar_le ..

/-- The characters of a byte string, a replacement character for each piece that is none. -/
def decodeLossyList (done : List Char) : Bytes → List Char
  | [] => done.reverse
  | first :: rest =>
      decodeLossyList ((nextChar first rest).1.getD replacement :: done) (nextChar first rest).2
  termination_by bytes => bytes.length
  decreasing_by
    have := length_nextChar_le first rest
    simp
    omega

/-- A byte string as text. -/
def decodeLossy (bytes : Bytes) : String :=
  String.ofList (decodeLossyList [] bytes)

/-- The bytes of a text: `String.utf8EncodeChar` of each character. -/
def encode (text : String) : Bytes :=
  text.toList.flatMap String.utf8EncodeChar

end PeerWire.Utf8
