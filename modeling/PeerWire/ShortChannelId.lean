import PeerWire.Codec.Decoder
import PeerWire.Text.Decimal
import PeerWire.Text.Pieces
import PeerWire.Text.Quoted

/-! # Short channel ids

A channel is located by the height of a block, the index of a transaction in it, and the index of
an output of that: 24, 24 and 16 bits, packed into one number. The text form is the three numbers
with an `x` between them. -/

namespace PeerWire

/-- A packed channel location. -/
structure ShortChannelId where
  /-- Height, transaction index and output index, from the highest bits down. -/
  packed : UInt64
  deriving DecidableEq, Repr

namespace ShortChannelId

/-- Heights and transaction indices are below this number, `2 ^ 24`. -/
def indexBound : Nat := 0x1000000

/-- The bytes of a packed id. -/
def width : Nat := 8

/-- Packs a location, `height <<< 40 ||| index <<< 16 ||| output`; bits past the 24th of a height or
transaction index are dropped. -/
def ofParts (height index : UInt32) (output : UInt16) : ShortChannelId :=
  ⟨((height.toUInt64 &&& 0xFFFFFF) <<< 40) ||| ((index.toUInt64 &&& 0xFFFFFF) <<< 16) |||
    output.toUInt64⟩

/-- The height of the block: `packed >>> 40`. -/
def height (id : ShortChannelId) : UInt32 := (id.packed >>> 40).toUInt32

/-- The index of the transaction in its block: 24 bits of `packed >>> 16`. -/
def index (id : ShortChannelId) : UInt32 := ((id.packed >>> 16) &&& 0xFFFFFF).toUInt32

/-- The index of the output in its transaction: the lowest 16 bits of `packed`. -/
def output (id : ShortChannelId) : UInt16 := id.packed.toUInt16

/-- Ids are ordered as their packed forms. -/
instance : LE ShortChannelId := ⟨fun a b => a.packed ≤ b.packed⟩

/-- Ids are ordered as their packed forms. -/
instance : LT ShortChannelId := ⟨fun a b => a.packed < b.packed⟩

/-- The order can be decided. -/
instance (a b : ShortChannelId) : Decidable (a ≤ b) :=
  inferInstanceAs (Decidable (a.packed ≤ b.packed))

/-- The order can be decided. -/
instance (a b : ShortChannelId) : Decidable (a < b) :=
  inferInstanceAs (Decidable (a.packed < b.packed))

/-- The ids in ascending order. -/
def sort (ids : List ShortChannelId) : List ShortChannelId := ids.mergeSort (· ≤ ·)

/-! ## Wire form -/

/-- The eight bytes of an id: `bigEndian 8 id.packed.toNat`. -/
def encode (id : ShortChannelId) : Bytes := bigEndian 8 id.packed.toNat

/-- Takes an id off a byte string. -/
def decoder : Decoder ShortChannelId := ShortChannelId.mk <$> Decoder.u64

/-! ## Text form -/

/-- The three parts with an `x` between them. -/
def toText (id : ShortChannelId) : String :=
  s!"{id.height.toNat}x{id.index.toNat}x{id.output.toNat}"

/-- The text form between the brackets of its type: `ShortChannelId(1x2x3)`. -/
def describe (id : ShortChannelId) : String := s!"ShortChannelId({id.toText})"

/-- Why a text is no id. -/
inductive ParseFailure where
  /-- Not three pieces. -/
  | parts
  /-- The height is no 32-bit number. -/
  | height
  /-- The transaction index is no 32-bit number. -/
  | index
  /-- The output index is no 16-bit number. -/
  | output
  /-- The height is too large. -/
  | heightRange
  /-- The transaction index is too large. -/
  | indexRange
  deriving DecidableEq, Repr

/-- The wording of a failure. -/
def ParseFailure.reason : ParseFailure → String
  | .parts => "expected three 'x'-separated parts"
  | .height => "bad block height"
  | .index => "bad transaction index"
  | .output => "bad output index"
  | .heightRange => "block height exceeds 24 bits"
  | .indexRange => "transaction index exceeds 24 bits"

/-- A failure shown with the text that caused it. -/
def ParseFailure.message (failure : ParseFailure) (text : String) : String :=
  s!"invalid short channel id {Text.quoteString text}: {failure.reason}"

/-- The id written by a text. The parts are read from left to right, then their ranges checked. -/
def parse (text : String) : Except ParseFailure ShortChannelId :=
  match Text.pieces 'x' text.toList with
  | [height, index, output] =>
      match Text.parseBelow? UInt32.size height with
      | none => .error .height
      | some height =>
          match Text.parseBelow? UInt32.size index with
          | none => .error .index
          | some index =>
              match Text.parseBelow? UInt16.size output with
              | none => .error .output
              | some output =>
                  if height ≥ indexBound then .error .heightRange
                  else if index ≥ indexBound then .error .indexRange
                  else
                    .ok (ofParts (UInt32.ofNat height) (UInt32.ofNat index) (UInt16.ofNat output))
  | _ => .error .parts

end ShortChannelId

end PeerWire
