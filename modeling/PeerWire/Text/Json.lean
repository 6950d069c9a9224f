import PeerWire.Text.Number

/-! # JSON text

The values that reports are made of, and their two layouts: on one line without spaces, and
indented by two spaces. Fields keep the order in which they are given. -/

namespace PeerWire

/-- A JSON value. -/
inductive Json where
  /-- True or false. -/
  | flag (value : Bool)
  /-- A natural number. -/
  | number (value : Nat)
  /-- A text. -/
  | text (value : String)
  /-- Values in order. -/
  | array (items : List Json)
  /-- Named values in order. -/
  | object (fields : List (String × Json))

namespace Json

/-- A character within a quoted text: the quote, the backslash and the controls are escaped. -/
def escapeChar (c : Char) : String :=
  if c = '"' then "\\\""
  else if c = '\\' then "\\\\"
  else if c = '\n' then "\\n"
  else if c = '\r' then "\\r"
  else if c = '\t' then "\\t"
  else if c = '\x08' then "\\b"
  else if c = '\x0c' then "\\f"
  else if c.toNat < 0x20 then "\\u" ++ Text.hexWord c.toNat
  else c.toString

/-- A text between quotes: each character by `escapeChar`. -/
def quote (text : String) : String :=
  "\"" ++ String.join (text.toList.map escapeChar) ++ "\""

/-- The layout on one line. -/
def compact : Json → String
  | .flag value => if value then "true" else "false"
  | .number value => toString value
  | .text value => quote value
  | .array items => "[" ++ ",".intercalate (items.map compact) ++ "]"
  | .object fields =>
      "\x7b" ++
        ",".intercalate (fields.attach.map fun ⟨(name, value), _⟩ =>
          quote name ++ ":" ++ compact value) ++ "\x7d"
  termination_by json => sizeOf json
  decreasing_by
    · have := List.sizeOf_lt_of_mem ‹_ ∈ items›
      simp
      omega
    · rename_i member
      have := List.sizeOf_lt_of_mem member
      simp at this ⊢
      omega

/-- The items of a value between brackets, each on a line of its own. -/
def block (opening closing indent : String) (items : List String) : String :=
  if items.isEmpty then opening ++ closing
  else
    opening ++ "\n" ++ ",\n".intercalate (items.map (indent ++ "  " ++ ·)) ++
      "\n" ++ indent ++ closing

/-- The indented layout, for a value that stands at the given `indent`. -/
def prettyAt (indent : String) : Json → String
  | .flag value => if value then "true" else "false"
  | .number value => toString value
  | .text value => quote value
  | .array items => block "[" "]" indent (items.map (prettyAt (indent ++ "  ")))
  | .object fields =>
      block "\x7b" "\x7d" indent (fields.attach.map fun ⟨(name, value), _⟩ =>
        quote name ++ ": " ++ prettyAt (indent ++ "  ") value)
  termination_by json => sizeOf json
  decreasing_by
    · have := List.sizeOf_lt_of_mem ‹_ ∈ items›
      simp
      omega
    · rename_i member
      have := List.sizeOf_lt_of_mem member
      simp at this ⊢
      omega

/-- The indented layout: `prettyAt` without indentation. -/
def pretty (json : Json) : String := prettyAt "" json

end Json

end PeerWire
