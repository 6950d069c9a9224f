import PeerWire.Frame.Inlet
import PeerWire.Message.Basic
import PeerWire.Message.LinkError

/-! # Reading messages from a source

One frame is one message. A body that cannot be read is reported, or skipped, and the next frame
is found all the same. -/

namespace PeerWire

/-- How many frames were read, and what became of them. -/
structure Tally where
  /-- All frames. -/
  frames : Nat := 0
  /-- Messages of the catalogue. -/
  decoded : Nat := 0
  /-- Messages of unknown tags. -/
  unknown : Nat := 0
  /-- Bodies that could not be read. -/
  malformed : Nat := 0
  deriving DecidableEq, Repr

/-- Counts a frame that gave a message. -/
def Tally.countMessage (tally : Tally) (message : Message) : Tally :=
  if message.isUnknown then
    { tally with frames := tally.frames + 1, unknown := tally.unknown + 1 }
  else { tally with frames := tally.frames + 1, decoded := tally.decoded + 1 }

/-- Counts a frame that gave none. -/
def Tally.countMalformed (tally : Tally) : Tally :=
  { tally with frames := tally.frames + 1, malformed := tally.malformed + 1 }

/-- An inlet of messages. -/
structure MessageInlet where
  /-- Where frames come from. -/
  frames : FrameInlet
  /-- The most bodies skipped in a row. -/
  skipLimit : Option Nat := none
  /-- What was read so far. -/
  tally : Tally := {}
  /-- Whether the iteration is over. -/
  finished : Bool := false
  deriving DecidableEq, Repr

namespace MessageInlet

/-- An inlet of the given source with a limit on declared lengths. -/
def ofSource (source : Source) (limit : Nat) (skipLimit : Option Nat) : MessageInlet :=
  { frames := { source, limit }, skipLimit }

/-- Reads one frame and the message in it, by `Message.ofFrame`. -/
def receive (inlet : MessageInlet) : Except LinkError Message × MessageInlet :=
  match inlet.frames.receive with
  | (.error cause, frames) => (.error (.frame cause), { inlet with frames })
  | (.ok frame, frames) =>
      match Message.ofFrame frame with
      | .ok message =>
          (.ok message, { inlet with frames, tally := inlet.tally.countMessage message })
      | .error cause =>
          (.error (.decode frame.tag cause),
            { inlet with frames, tally := inlet.tally.countMalformed })

/-- The number of bytes read ahead or still to be read: `inlet.frames.weight`. -/
def weight (inlet : MessageInlet) : Nat := inlet.frames.weight

/-- Unless no frame could be read, fewer bytes are left: `next.weight < inlet.weight`. -/
theorem weight_of_receive {inlet next : MessageInlet} {outcome : Except LinkError Message}
    (h : inlet.receive = (outcome, next)) (hframe : ∀ cause, outcome ≠ .error (.frame cause)) :
    next.weight < inlet.weight := by
  unfold receive at h
  split at h
  · cases h
    exact absurd rfl (hframe _)
  · rename_i frame frames hread
    have := FrameInlet.weight_of_receive hread
    split at h <;> cases h <;> exact this

/-- Reads messages until one is found, skipping bodies that cannot be read; `skipped` were skipped
before. -/
def receiveSkipping (skipped : Nat) (inlet : MessageInlet) :
    Except LinkError Message × MessageInlet :=
  match _outcome : inlet.receive with
  | (.error (.decode _ _), next) =>
      match next.skipLimit with
      | none => receiveSkipping (skipped + 1) next
      | some limit =>
          if skipped + 1 > limit then (.error (.skippedTooMany (skipped + 1)), next)
          else receiveSkipping (skipped + 1) next
  | (outcome, next) => (outcome, next)
  termination_by inlet.weight
  decreasing_by all_goals exact weight_of_receive _outcome (by simp)

/-- Reads the next message, skipping bodies that cannot be read: `inlet.receiveSkipping 0`. -/
def receiveValid (inlet : MessageInlet) : Except LinkError Message × MessageInlet :=
  inlet.receiveSkipping 0

/-- The next item of the iteration over all outcomes, `none` when it is over. The end of the input
between frames ends it without an item, any other fatal error with one. -/
def next (inlet : MessageInlet) : Option (Except LinkError Message) × MessageInlet :=
  if inlet.finished then (none, inlet)
  else
    match inlet.receive with
    | (.error error, inlet) =>
        if error.isClosed then (none, { inlet with finished := true })
        else if error.isFatal then (some (.error error), { inlet with finished := true })
        else (some (.error error), inlet)
    | (.ok message, inlet) => (some (.ok message), inlet)

/-- An item that does not finish the iteration leaves fewer bytes: `following.weight <
inlet.weight`. -/
theorem weight_of_next {inlet following : MessageInlet} {item : Except LinkError Message}
    (h : inlet.next = (some item, following)) (unfinished : following.finished = false) :
    following.weight < inlet.weight := by
  unfold next at h
  split at h
  · cases h
  · split at h
    · rename_i error next hreceive
      split at h
      · cases h
      · split at h
        · cases h
          simp at unfinished
        · rename_i recoverable
          cases h
          refine weight_of_receive hreceive ?_
          intro cause same
          cases same
          simp [LinkError.isFatal] at recoverable
    · rename_i hreceive
      cases h
      exact weight_of_receive hreceive (by simp)

/-- All items of the iteration; `done` holds the items so far, last one first. -/
def drain (done : List (Except LinkError Message)) (inlet : MessageInlet) :
    List (Except LinkError Message) × MessageInlet :=
  match _item : inlet.next with
  | (none, following) => (done.reverse, following)
  | (some item, following) =>
      if _unfinished : following.finished = false then drain (item :: done) following
      else ((item :: done).reverse, following)
  termination_by inlet.weight
  decreasing_by exact weight_of_next _item _unfinished

end MessageInlet

end PeerWire
