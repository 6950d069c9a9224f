import PeerWire.Message.Inlet
import PeerWire.Proofs.Transfer

/-! # Messages out of frames

A reader of messages takes one frame for each of its outcomes, whatever is in the body: the message,
or why the body cannot be read (`MessageInlet.receiveMany_of_frames`). What comes of a frame is thus
a matter of that frame alone, and a body that cannot be read, or another one in its place, does not
show in any other outcome (`MessageInlet.receiveMany_isolated`). -/

namespace PeerWire

/-- What a reader makes of a frame: what `Message.decode` makes of its tag and its body, and with
the tag why the body cannot be read. -/
def Frame.outcome (frame : Frame) : Except LinkError Message :=
  match Message.decode frame.tag frame.body with
  | .ok message => .ok message
  | .error cause => .error (.decode frame.tag cause)

/-- Of a frame comes its message, or with its tag why the body cannot be read. -/
theorem Frame.outcome_cases (frame : Frame) :
    (∃ message, frame.outcome = .ok message) ∨
      ∃ cause, frame.outcome = .error (.decode frame.tag cause) := by
  rw [outcome]
  split
  · exact .inl ⟨_, rfl⟩
  · exact .inr ⟨_, rfl⟩

/-- What comes of a frame is not an error of the framing, `.frame cause`. -/
theorem Frame.outcome_ne_frame_error (frame : Frame) (cause : FrameError) :
    frame.outcome ≠ .error (.frame cause) := by
  rcases frame.outcome_cases with ⟨message, same⟩ | ⟨unread, same⟩ <;> simp [same]

/-- A source that gives the wire forms of frames that fit, one after the other and cut in any way,
and then ends. -/
structure Source.Carries (source : Source) (limit : Nat) (frames : List Frame) : Prop where
  /-- The frames fit. -/
  fits : ∀ frame ∈ frames, frame.Fits limit
  /-- The data are their wire forms. -/
  pending : source.pending = frames.flatMap Frame.toBytes
  /-- No read finds the end before them, and none fails for good. -/
  flowing : source.Flowing

/-- Counts a frame by what a reader makes of it: as a message, or as malformed. -/
def Tally.countFrame (tally : Tally) (frame : Frame) : Tally :=
  match Message.decode frame.tag frame.body with
  | .ok message => tally.countMessage message
  | .error _ => tally.countMalformed

namespace MessageInlet

/-- Reads a number of times, whatever comes of each. -/
def receiveMany : Nat → MessageInlet → List (Except LinkError Message) × MessageInlet
  | 0, inlet => ([], inlet)
  | count + 1, inlet =>
      match inlet.receive with
      | (outcome, inlet) =>
          match receiveMany count inlet with
          | (outcomes, inlet) => (outcome :: outcomes, inlet)

/-- What is read ahead or still to be read, `buffer ++ source.pending`, from a flowing source. -/
structure Holds (inlet : MessageInlet) (bytes : Bytes) : Prop where
  /-- The bytes. -/
  bytes : inlet.frames.buffer ++ inlet.frames.source.pending = bytes
  /-- The source does not end before them. -/
  flowing : inlet.frames.source.Flowing

/-- Reading `count + 1` times is reading once and then the other times. -/
theorem receiveMany_succ {inlet middle next : MessageInlet} {count : Nat}
    {outcome : Except LinkError Message} {outcomes : List (Except LinkError Message)}
    (first : inlet.receive = (outcome, middle))
    (later : middle.receiveMany count = (outcomes, next)) :
    inlet.receiveMany (count + 1) = (outcome :: outcomes, next) := by
  rw [receiveMany, first]
  simp only [later]

/-- A frame that is read gives `frame.outcome` and is counted, whether its body can be read or
not. -/
theorem receive_of_ok {inlet : MessageInlet} {frames : FrameInlet} {frame : Frame}
    (received : inlet.frames.receive = (.ok frame, frames)) :
    inlet.receive =
      (frame.outcome, { inlet with frames, tally := inlet.tally.countFrame frame }) := by
  rw [receive, received, Frame.outcome, Tally.countFrame]
  simp only [Message.ofFrame]
  cases Message.decode frame.tag frame.body with
  | ok message => rfl
  | error cause => rfl

/-- A frame that fits gives its outcome, is counted by `countFrame`, and is gone, whether its body
can be read or not. -/
theorem receive_of_frame {inlet : MessageInlet} {frame : Frame} {later : Bytes}
    (holds : inlet.Holds (frame.toBytes ++ later)) (fits : frame.Fits inlet.frames.limit) :
    ∃ next, inlet.receive = (frame.outcome, next) ∧ next.Holds later ∧
      next.frames.limit = inlet.frames.limit ∧ next.tally = inlet.tally.countFrame frame := by
  obtain ⟨frames, received, limit, rest, flowing⟩ :=
    FrameInlet.receive_of_frame holds.flowing fits holds.bytes
  exact ⟨{ inlet with frames, tally := inlet.tally.countFrame frame }, receive_of_ok received,
    ⟨rest, flowing⟩, limit, rfl⟩

/-- With nothing left the stream is `closed`, and nothing is counted. -/
theorem receive_of_nothing {inlet : MessageInlet} (holds : inlet.Holds []) :
    ∃ next, inlet.receive = (.error (.frame .closed), next) ∧ next.Holds [] ∧
      next.tally = inlet.tally := by
  obtain ⟨frames, received, -, rest, flowing⟩ :=
    FrameInlet.receive_of_nothing holds.flowing holds.bytes
  refine ⟨{ inlet with frames }, ?_, ⟨rest, flowing⟩, rfl⟩
  rw [receive, received]

/-- Once the stream is closed it stays closed. -/
theorem receiveMany_of_nothing {inlet : MessageInlet} (holds : inlet.Holds []) (count : Nat) :
    ∃ next, inlet.receiveMany count = (List.replicate count (.error (.frame .closed)), next) ∧
      next.tally = inlet.tally := by
  induction count generalizing inlet with
  | zero => exact ⟨inlet, rfl, rfl⟩
  | succ count ih =>
      obtain ⟨middle, closed, left, same⟩ := receive_of_nothing holds
      obtain ⟨next, run, tally⟩ := ih left
      exact ⟨next, receiveMany_succ closed run, tally.trans same⟩

/-- **Each frame gives its outcome, in order**, `frames.map Frame.outcome`, and then the stream is
closed. -/
theorem receiveMany_of_frames {inlet : MessageInlet} {frames : List Frame}
    (holds : inlet.Holds (frames.flatMap Frame.toBytes))
    (each : ∀ frame ∈ frames, frame.Fits inlet.frames.limit) (more : Nat) :
    ∃ next, inlet.receiveMany (frames.length + more) =
        (frames.map Frame.outcome ++ List.replicate more (.error (.frame .closed)), next) ∧
      next.tally = frames.foldl Tally.countFrame inlet.tally := by
  induction frames generalizing inlet with
  | nil =>
      rw [List.length_nil, Nat.zero_add]
      exact receiveMany_of_nothing holds more
  | cons frame frames ih =>
      obtain ⟨middle, received, left, limit, counted⟩ :=
        receive_of_frame holds (each frame List.mem_cons_self)
      obtain ⟨next, run, tally⟩ := ih left fun other member => by
        rw [limit]
        exact each other (List.mem_cons_of_mem _ member)
      rw [List.length_cons, Nat.add_right_comm]
      refine ⟨next, receiveMany_succ received run, ?_⟩
      rw [tally, counted, List.foldl_cons]

/-! ## One frame and the others -/

/-- The first outcomes do not depend on how many `more` are asked for. -/
theorem take_receiveMany (count more : Nat) (inlet : MessageInlet) :
    (inlet.receiveMany (count + more)).1.take count = (inlet.receiveMany count).1 := by
  induction count generalizing inlet with
  | zero => rw [List.take_zero, receiveMany]
  | succ count ih =>
      rw [Nat.add_right_comm, receiveMany, receiveMany, List.take_succ_cons, ih]

variable {source : Source} {limit : Nat} {frames : List Frame}

/-- The frames that a source carries give their outcomes, and then the stream is closed. -/
theorem receiveMany_of_carries (carries : source.Carries limit frames) (skipLimit : Option Nat)
    (more : Nat) :
    ((ofSource source limit skipLimit).receiveMany (frames.length + more)).1 =
      frames.map Frame.outcome ++ List.replicate more (.error (.frame .closed)) := by
  have holds : (ofSource source limit skipLimit).Holds (frames.flatMap Frame.toBytes) :=
    ⟨carries.pending, carries.flowing⟩
  obtain ⟨next, run, -⟩ := receiveMany_of_frames holds carries.fits more
  rw [run]

/-- **A body does not show outside its outcome.** The frames that a source carries give `frames.map
Frame.outcome`, their message or why their body cannot be read, and then the stream is closed,
however often it is asked. With another frame in place of one of them, `frames.set place other`, of
any tag and size, over any source that carries it with the others, all other outcomes are the
same. -/
theorem receiveMany_isolated (carries : source.Carries limit frames) (skipLimit : Option Nat) :
    (∀ more, ((ofSource source limit skipLimit).receiveMany (frames.length + more)).1 =
      frames.map Frame.outcome ++ List.replicate more (.error (.frame .closed))) ∧
    ∀ (place : Nat) (other : Frame) (source' : Source) (limit' : Nat) (skipLimit' : Option Nat),
      source'.Carries limit' (frames.set place other) → ∀ count index, index ≠ place →
        ((ofSource source' limit' skipLimit').receiveMany count).1[index]? =
          ((ofSource source limit skipLimit).receiveMany count).1[index]? := by
  refine ⟨receiveMany_of_carries carries skipLimit, ?_⟩
  intro place other source' limit' skipLimit' carries' count index elsewhere
  -- Both runs are the first part of runs that come to the end of their frames.
  have outcomes := receiveMany_of_carries carries skipLimit count
  have outcomes' := receiveMany_of_carries carries' skipLimit' count
  rw [List.length_set] at outcomes'
  rw [← take_receiveMany count frames.length, ← take_receiveMany count frames.length,
    Nat.add_comm count, outcomes, outcomes', List.map_set, List.getElem?_take, List.getElem?_take,
    List.getElem?_append, List.getElem?_append, List.length_set,
    List.getElem?_set_ne elsewhere.symm]

/-- A ping, a fee update cut short and an unknown message arrive byte by byte. The fee update is
reported and the message after it is read; it is read as well when a longer body of another tag
arrives in between, in one read with everything else. -/
theorem receiveMany_isolated_fee_update :
    let ping : Frame := ⟨18, [0, 5, 0, 2, 1, 2]⟩
    let update : Frame := ⟨134, [0]⟩
    let foreign : Frame := ⟨1, [7]⟩
    let stream : Bytes := [ping, update, foreign].flatMap Frame.toBytes
    let other : Frame := ⟨16, [0, 200, 1, 2, 3]⟩
    let stream' : Bytes := [ping, other, foreign].flatMap Frame.toBytes
    let source : Source := ⟨.fault .interrupted :: stream.map fun byte => .data [byte], 0⟩
    let source' : Source := ⟨[.data stream'], 0⟩
    ((ofSource source 10 none).receiveMany 4).1 =
        [.ok (.known .ping (5, [1, 2], ()) []),
          .error (.decode 134 (.field "update_fee" "channel_id" 0 (.truncated 32 1))),
          .ok (.unknown 1 [7]), .error (.frame .closed)] ∧
      ((ofSource source' 20 none).receiveMany 4).1[2]? = some (.ok (.unknown 1 [7])) := by
  intro ping update foreign stream other stream' source source'
  have carries : source.Carries 10 [ping, update, foreign] := by
    refine ⟨?_, ?_, ?_⟩
    · simp [Frame.Fits, Frame.declaredLength, Frame.tagWidth, Frame.maxSize, ping, update, foreign]
    · simp [Source.pending, source, stream, ReadEvent.bytes, List.flatMap_map]
    · rintro event (_ | ⟨_, member⟩)
      · exact .inr rfl
      · obtain ⟨byte, -, rfl⟩ := List.mem_map.1 member
        exact .inl ⟨byte, [], rfl⟩
  have carries' : source'.Carries 20 ([ping, update, foreign].set 1 other) := by
    refine ⟨?_, List.append_nil _, ?_⟩
    · simp [Frame.Fits, Frame.declaredLength, Frame.tagWidth, Frame.maxSize, ping, other, foreign]
    · rintro event (_ | ⟨_, ⟨⟩⟩)
      exact .inl ⟨_, _, rfl⟩
  obtain ⟨outcomes, others⟩ := receiveMany_isolated carries none
  have run : ((ofSource source 10 none).receiveMany 4).1 =
      [.ok (.known .ping (5, [1, 2], ()) []),
        .error (.decode 134 (.field "update_fee" "channel_id" 0 (.truncated 32 1))),
        .ok (.unknown 1 [7]), .error (.frame .closed)] :=
    (outcomes 1).trans (by decide)
  refine ⟨run, ?_⟩
  rw [others 1 other source' 20 none carries' 4 2 (by decide), run]
  rfl

end MessageInlet

end PeerWire
