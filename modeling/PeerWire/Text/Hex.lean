import PeerWire.Bytes
import PeerWire.Text.Quoted

/-! # Hexadecimal text

Byte strings as lower-case digit pairs, and back. Reading takes either case and works on the
bytes of the text, so the position in an error counts bytes. -/

namespace PeerWire.Hex

/-- The digit of a number below sixteen. -/
def digit (value : UInt8) : Char :=
  if value < 10 then Char.ofNat (48 + value.toNat) else Char.ofNat (87 + value.toNat)

/-- Two lower-case digits for each byte: those of `byte / 16` and `byte % 16`. -/
def encode (bytes : Bytes) : String :=
  String.ofList (bytes.flatMap fun byte => [digit (byte / 16), digit (byte % 16)])

/-- The value of one digit of either case, given as a byte of text. -/
def digitValue? (byte : UInt8) : Option UInt8 :=
  if 48 ≤ byte && byte ≤ 57 then some (byte - 48)
  else if 65 ≤ byte && byte ≤ 70 then some (byte - 55)
  else if 97 ≤ byte && byte ≤ 102 then some (byte - 87)
  else none

/-- Why a text is not the hexadecimal form of a byte string. -/
inductive Error where
  /-- The digits do not pair up. -/
  | oddLength
  /-- There are pairs, but not as many as asked for. -/
  | wrongLength
  /-- A byte of the text is no digit. -/
  | badDigit (byte : UInt8) (position : Nat)
  deriving DecidableEq, Repr

/-- The wording of an error; the offending byte is shown as the character of that number. -/
def Error.message : Error → String
  | .oddLength => "Odd number of digits"
  | .wrongLength => "Invalid string length"
  | .badDigit byte position =>
      s!"Invalid character {Text.quoteChar (Char.ofNat byte.toNat)} at position {position}"

/-- Reads digit pairs from a position on; `done` holds the bytes read so far, last one first. -/
def decodePairs (position : Nat) (done : Bytes) : Bytes → Except Error Bytes
  | high :: low :: rest =>
      match digitValue? high, digitValue? low with
      | some h, some l => decodePairs (position + 2) ((h * 16 + l) :: done) rest
      | none, _ => .error (.badDigit high position)
      | some _, none => .error (.badDigit low (position + 1))
  | _ => .ok done.reverse

/-- The byte string written by a text of digit pairs. -/
def decode (text : String) : Except Error Bytes :=
  let bytes := text.toUTF8.toList
  if bytes.length % 2 = 1 then .error .oddLength else decodePairs 0 [] bytes

/-- The byte string of a known `length` written by a text; the length is checked before the
digits. -/
def decodeExact (length : Nat) (text : String) : Except Error Bytes :=
  let bytes := text.toUTF8.toList
  if bytes.length % 2 = 1 then .error .oddLength
  else if bytes.length / 2 ≠ length then .error .wrongLength
  else decodePairs 0 [] bytes

end PeerWire.Hex
