import PeerWire.Message.Catalogue

/-! # The registry of tags

A sorted table from tags to names, and what can be said of a tag alone. A tag is looked up by
halving the part of the table that may hold it. -/

namespace PeerWire.Registry

/-- The tags of the catalogue with their names, ascending: those of `MessageKind.all`. -/
def table : Array (UInt16 × String) :=
  (MessageKind.all.map fun kind => (kind.tag, kind.name)).toArray

/-- Looks a tag up between two places of a sorted table, from `low` up to `high`, the second not
included. -/
def search (entries : Array (UInt16 × String)) (tag : UInt16) (low high : Nat) : Option String :=
  if low < high then
    let middle := (low + high) / 2
    match entries[middle]? with
    | none => none
    | some (other, name) =>
        if tag = other then some name
        else if tag < other then search entries tag low middle
        else search entries tag (middle + 1) high
  else none
  termination_by high - low

/-- The name of a tag, if `table` has it. -/
def lookup? (tag : UInt16) : Option String := search table tag 0 table.size

/-- Whether a tag has a name. -/
def isKnown (tag : UInt16) : Bool := (lookup? tag).isSome

/-- Whether a tag is even; a peer must understand even tags and may ignore odd ones. -/
def isEven (tag : UInt16) : Bool := tag % 2 = 0

/-- A tag with its name, as in `ping(18)`, or with `unknown`. -/
def label (tag : UInt16) : String :=
  (lookup? tag).getD "unknown" ++ "(" ++ toString tag.toNat ++ ")"

end PeerWire.Registry
