import PeerWire.Blob
import PeerWire.Text.Utf8

/-! # Node aliases

The name a node gives itself is text in thirty-two bytes, filled up with zeros. -/

namespace PeerWire

/-- The leading characters of a text that fit into `room` bytes. -/
def fittingChars : (room : Nat) → List Char → List Char
  | _, [] => []
  | room, c :: rest =>
      if c.utf8Size ≤ room then c :: fittingChars (room - c.utf8Size) rest else []

/-- The characters that fit take no more than the room: their bytes are `room` at most. -/
theorem length_fittingChars_le (room : Nat) (text : List Char) :
    ((fittingChars room text).flatMap String.utf8EncodeChar).length ≤ room := by
  fun_induction fittingChars room text with
  | case1 => simp
  | case2 room c rest fits ih =>
      simp only [List.flatMap_cons, List.length_append, String.length_utf8EncodeChar]
      omega
  | case3 => simp

namespace NodeAlias

/-- The alias that holds as much of a text as fits. -/
def ofText (text : String) : NodeAlias where
  octets :=
    let content := (fittingChars 32 text.toList).flatMap String.utf8EncodeChar
    ⟨content ++ List.replicate (32 - content.length) 0, by
      have := length_fittingChars_le 32 text.toList
      simp only [List.length_append, List.length_replicate, BlobKind.width, content]
      omega⟩

/-- The text of an alias, without the zeros it was filled up with: `trimZeros name.bytes`, read with
repair. -/
def toText (name : NodeAlias) : String := Utf8.decodeLossy (trimZeros name.bytes)

end NodeAlias

end PeerWire
