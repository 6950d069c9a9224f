import PeerWire.Text.Combining
import PeerWire.Text.Number
import PeerWire.Text.Printable

/-! # Quoted text

How error messages show text they were given: between quotes, with escapes for the quote, the
backslash, the usual controls, and for whatever would be invisible or would join its neighbour. -/

namespace PeerWire.Text

/-- One character between quotes of the given kind. -/
def escapeChar (quote c : Char) : String :=
  if c = '\x00' then "\\0"
  else if c = '\t' then "\\t"
  else if c = '\n' then "\\n"
  else if c = '\r' then "\\r"
  else if c = '\\' || c = quote then "\\" ++ c.toString
  else if isCombining c || !isPrintable c then "\\u\x7b" ++ hexNumber c.toNat ++ "\x7d"
  else c.toString

/-- A character between single quotes. -/
def quoteChar (c : Char) : String :=
  "'" ++ escapeChar '\'' c ++ "'"

/-- A text between double quotes. -/
def quoteString (text : String) : String :=
  "\"" ++ String.join (text.toList.map (escapeChar '"')) ++ "\""

end PeerWire.Text
