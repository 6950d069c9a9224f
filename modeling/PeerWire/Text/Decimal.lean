/-! # Decimal numbers in text

An unsigned number is an optional single plus sign and then one or more decimal digits. Leading
zeros do not count against the limit on its value. -/

namespace PeerWire.Text

/-- The value of a decimal digit. -/
def decimalDigit? (c : Char) : Option Nat :=
  if '0' ≤ c && c ≤ '9' then some (c.toNat - '0'.toNat) else none

/-- The number written by digits that follow a number already read. -/
def digitsValue? (value : Nat) : List Char → Option Nat
  | [] => some value
  | c :: rest => (decimalDigit? c).bind fun d => digitsValue? (value * 10 + d) rest

/-- The number written by one or more digits. -/
def unsignedDigits? : List Char → Option Nat
  | [] => none
  | digits => digitsValue? 0 digits

/-- The number below a limit written by a text. -/
def parseBelow? (limit : Nat) (text : List Char) : Option Nat :=
  let digits := match text with
    | '+' :: rest => rest
    | rest => rest
  (unsignedDigits? digits).filter (· < limit)

end PeerWire.Text
