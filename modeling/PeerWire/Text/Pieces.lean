/-! # Pieces of a text

A text cut at every occurrence of a separator: one more piece than there are separators. -/

namespace PeerWire.Text

/-- The pieces of a text between separators. -/
def pieces (separator : Char) (text : List Char) : List (List Char) :=
  text.foldr
    (fun c parts =>
      if c = separator then [] :: parts
      else match parts with
        | part :: rest => (c :: part) :: rest
        | [] => [[c]])
    [[]]

/-- The lines of a text, which line feeds separate. -/
def lines (text : String) : List String := (pieces '\n' text.toList).map String.ofList

end PeerWire.Text
