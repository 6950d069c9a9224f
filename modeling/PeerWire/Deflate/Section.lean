import PeerWire.Deflate.Search
import PeerWire.Deflate.Token

/-! # Sections of the input

The input is cut into sections, each of which becomes a block, and each section into tokens. A copy
is held back for one position: when a longer one starts at the next position, the byte between is
written as it is and the longer copy takes its place. -/

namespace PeerWire.Deflate

/-- A part of the input, cut into tokens. -/
structure Section where
  /-- Where it starts. -/
  start : Nat
  /-- The number of its bytes. -/
  size : Nat
  /-- Its tokens, last one first. -/
  tokens : List Token
  /-- The number of copies among them. -/
  copies : Nat
  /-- The number of bytes among them. -/
  literals : Nat
  /-- Its bytes may still be looked up when it ends. -/
  isWithinReach : Bool

namespace Section

/-- The section without tokens that starts at a position: `⟨start, 0, [], 0, 0, true⟩`. -/
def startingAt (start : Nat) : Section := ⟨start, 0, [], 0, 0, true⟩

/-- Adds a byte. -/
def pushLiteral (draft : Section) (byte : UInt8) : Section :=
  { draft with
    size := draft.size + 1, tokens := .literal byte :: draft.tokens
    literals := draft.literals + 1 }

/-- Adds a copy. -/
def pushCopy (draft : Section) (copy : Copy) : Section :=
  { draft with
    size := draft.size + copy.length
    tokens := .copy copy.length copy.distance :: draft.tokens
    copies := draft.copies + 1 }

/-- The room the tokens take in memory: one place for a byte, three for a copy, and one for each
eight tokens begun. -/
def room (draft : Section) : Nat :=
  1 + draft.literals + 3 * draft.copies + (draft.literals + draft.copies) / 8

/-- The room that tokens may take. -/
def maxRoom : Nat := 65528

/-- The size from which on a section that resists compression ends. -/
def minStubbornSize : Nat := 31 * 1024

/-- A section ends when its tokens take too much room, and, past a certain size, when nine tenths
of their room is as much as its bytes. -/
def isFull (draft : Section) : Bool :=
  maxRoom < draft.room ||
    minStubbornSize < draft.size && draft.size ≤ draft.room * 115 / 128

end Section

/-- The copies of this length or more are taken without a look at the next position. -/
def longCopyLength : Nat := 128

/-- Where the cutting stands. -/
structure Cutter where
  /-- The positions filed so far. -/
  chains : Chains
  /-- The copy that starts at the position before and is held back. -/
  held : Option Copy
  /-- The section being cut. -/
  draft : Section

namespace Cutter

/-- The number of bytes in view from a position on: `min maxCopyLength (size - position)`. -/
def view (size position : Nat) : Nat := min maxCopyLength (size - position)

/-- Looks for a copy at a position, longer than the one held back. -/
def look (cutter : Cutter) (bytes : ByteArray) (position : Nat) : Option Copy :=
  let bound := view bytes.size position
  let quest : Quest :=
    ⟨bytes, cutter.chains, position, bound, min position (windowSize - bound)⟩
  quest.best? (match cutter.held with | some copy => copy.length | none => minCopyLength - 1)

/-- Takes a copy, or holds it back if it is not long. The result has the number of bytes passed
besides the first. -/
def offer (cutter : Cutter) (copy : Copy) : Cutter × Nat :=
  if longCopyLength ≤ copy.length then
    ({ cutter with held := none, draft := cutter.draft.pushCopy copy }, copy.length - 1)
  else ({ cutter with held := some copy }, 0)

/-- Settles the byte at a position, given the copy found there. The result has the number of
bytes passed besides the first. -/
def settle (cutter : Cutter) (bytes : ByteArray) (position : Nat) (found : Option Copy) :
    Cutter × Nat :=
  match cutter.held, found with
  | none, none =>
      ({ cutter with draft := cutter.draft.pushLiteral (byteAt bytes position) }, 0)
  | none, some copy => cutter.offer copy
  | some _, some copy =>
      -- the copy found is longer than the one held back, of which only the first byte remains
      { cutter with draft := cutter.draft.pushLiteral (byteAt bytes (position - 1)) }.offer copy
  | some copy, none =>
      -- it starts at the position before, so one of its bytes is passed already
      ({ cutter with held := none, draft := cutter.draft.pushCopy copy }, copy.length - 2)

/-- The number of positions filed when a position is looked at, `position + view size position - 2`:
those whose three bytes are in view or before it. -/
def filed (size position : Nat) : Nat := position + view size position - 2

/-- Files the positions that come into view between two positions. -/
def file (cutter : Cutter) (bytes : ByteArray) (position next : Nat) : Cutter :=
  let before := filed bytes.size position
  { cutter with
    chains := cutter.chains.insertMany bytes (filed bytes.size next - before) before }

/-- The cutter at the first byte. -/
def start (bytes : ByteArray) : Cutter :=
  ⟨Chains.empty.insertMany bytes (filed bytes.size 0) 0, none, .startingAt 0⟩

/-- The section made so far, when it ends at a position. The bytes in view there take up room
that the bytes behind it lose. -/
def finish (cutter : Cutter) (next unpassed : Nat) : Section :=
  { cutter.draft with
    isWithinReach := next - cutter.draft.start ≤ min next (windowSize - unpassed) }

/-- Cuts the bytes from a position on; `done` holds the sections made before, last one first. -/
def cut (cutter : Cutter) (bytes : ByteArray) (position : Nat) (done : List Section) :
    List Section :=
  if position < bytes.size then
    let found := cutter.look bytes position
    let (settled, more) := cutter.settle bytes position found
    let passed := more + 1
    let next := position + passed
    let cutter := settled.file bytes position next
    if cutter.draft.isFull then
      -- a byte whose copy is held back belongs to the next section
      let ended := cutter.finish next (view bytes.size position - passed)
      cut { cutter with draft := .startingAt (ended.start + ended.size) } bytes next
        (ended :: done)
    else cut cutter bytes next done
  else (cutter.finish position 0 :: done).reverse
  termination_by bytes.size - position
  decreasing_by all_goals omega

end Cutter

/-- The sections of the input; the last one may be empty. -/
def sections (bytes : ByteArray) : List Section :=
  (Cutter.start bytes).cut bytes 0 []

end PeerWire.Deflate
