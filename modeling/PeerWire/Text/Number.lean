/-! # Numbers in hexadecimal

Lower-case digits, either as few as possible or at least four. -/

namespace PeerWire.Text

/-- The hexadecimal digits of a number, without leading zeros. -/
def hexNumber (value : Nat) : String := String.ofList (Nat.toDigits 16 value)

/-- The hexadecimal digits of a number, filled up with zeros to four. -/
def hexWord (value : Nat) : String :=
  let digits := Nat.toDigits 16 value
  String.ofList (List.replicate (4 - digits.length) '0' ++ digits)

end PeerWire.Text
