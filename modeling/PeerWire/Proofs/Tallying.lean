import PeerWire.Proofs.Iterating
import PeerWire.Proofs.Reading

/-! # What a tally accounts for

A tally counts the frames that were taken out of the stream, each once and by what is in it. `Takes`
says what a step of a reader takes: the frames between the bytes that were pending before it and
those that are pending after it, all of them counted. Every call takes some frames (`receive_takes`,
`receiveSkipping_takes`, `next_takes`), and so does every run of requests, so that a tally is the
count of all the frames taken so far, however the calls are mixed and whatever they return
(`MessageInlet.tally_accounts`). -/

namespace PeerWire

/-! ## Counting -/

namespace Tally

/-- A tally with some frames more of each kind: `decoded + unknown + malformed` of them. -/
def more (tally : Tally) (decoded unknown malformed : Nat) : Tally where
  frames := tally.frames + (decoded + unknown + malformed)
  decoded := tally.decoded + decoded
  unknown := tally.unknown + unknown
  malformed := tally.malformed + malformed

/-- No counter of a tally is above that of a later one. -/
structure Grows (earlier later : Tally) : Prop where
  /-- The frames. -/
  frames : earlier.frames ≤ later.frames
  /-- The messages of the catalogue. -/
  decoded : earlier.decoded ≤ later.decoded
  /-- The messages of unknown tags. -/
  unknown : earlier.unknown ≤ later.unknown
  /-- The bodies that could not be read. -/
  malformed : earlier.malformed ≤ later.malformed

/-- What a tally becomes by an outcome, after so many frames were skipped on the way to it: one
frame more of the kind of the outcome, and those that were skipped. An error that is not about a
body is no frame. -/
def afterOutcome (tally : Tally) (skipped : Nat) : Except LinkError Message → Tally
  | .ok message => if message.isUnknown then tally.more 0 1 skipped else tally.more 1 0 skipped
  | .error (.decode _ _) => tally.more 0 0 (skipped + 1)
  | .error (.frame _) => tally.more 0 0 skipped
  | .error (.skippedTooMany _) => tally.more 0 0 skipped

variable {tally : Tally} {frame : Frame} {frames : List Frame}

/-- Frames more, and then others: as many as both together. -/
theorem more_more (tally : Tally) (decoded unknown malformed decoded' unknown' malformed' : Nat) :
    (tally.more decoded unknown malformed).more decoded' unknown' malformed' =
      tally.more (decoded + decoded') (unknown + unknown') (malformed + malformed') := by
  simp only [more, mk.injEq]
  omega

/-- A tally with frames more has grown. -/
theorem grows_more (tally : Tally) (decoded unknown malformed : Nat) :
    tally.Grows (tally.more decoded unknown malformed) :=
  ⟨Nat.le_add_right _ _, Nat.le_add_right _ _, Nat.le_add_right _ _, Nat.le_add_right _ _⟩

/-- A frame is counted by its outcome, `frame.outcome`. -/
theorem countFrame_eq_afterOutcome (tally : Tally) (frame : Frame) :
    tally.countFrame frame = tally.afterOutcome 0 frame.outcome := by
  rw [countFrame, Frame.outcome]
  split <;> rfl

/-- Skipping first, and then coming to an outcome: `skipped + more` frames were skipped then. -/
theorem afterOutcome_more (tally : Tally) (skipped more : Nat)
    (outcome : Except LinkError Message) :
    (tally.more 0 0 skipped).afterOutcome more outcome =
      tally.afterOutcome (skipped + more) outcome := by
  rcases outcome with (_ | _ | _) | message
  · exact more_more ..
  · exact more_more ..
  · exact more_more ..
  · simp only [afterOutcome, more_more, Nat.zero_add]

/-- A frame whose body cannot be read is counted as such: `tally.more 0 0 1`. -/
theorem countFrame_of_malformed (bad : MessageInlet.isMalformed frame.outcome) :
    tally.countFrame frame = tally.more 0 0 1 := by
  rw [countFrame_eq_afterOutcome]
  rcases frame.outcome_cases with ⟨message, same⟩ | ⟨cause, same⟩
  · rw [same] at bad
    cases bad
  · rw [same]
    rfl

/-- Frames whose bodies cannot be read are counted as such: `tally.more 0 0 frames.length`. -/
theorem foldl_countFrame_of_malformed (tally : Tally)
    (bad : ∀ frame ∈ frames, MessageInlet.isMalformed frame.outcome) :
    frames.foldl countFrame tally = tally.more 0 0 frames.length := by
  induction frames generalizing tally with
  | nil => rfl
  | cons frame frames ih =>
      rw [List.foldl_cons, countFrame_of_malformed (bad frame List.mem_cons_self),
        ih _ fun other member => bad other (List.mem_cons_of_mem _ member), more_more,
        List.length_cons, Nat.add_comm 1]

/-- **Each frame is of one kind**: counting some frames makes as many more, `decoded + unknown +
malformed = frames.length`. -/
theorem exists_foldl_countFrame_eq_more (tally : Tally) (frames : List Frame) :
    ∃ decoded unknown malformed, decoded + unknown + malformed = frames.length ∧
      frames.foldl countFrame tally = tally.more decoded unknown malformed := by
  induction frames generalizing tally with
  | nil => exact ⟨0, 0, 0, rfl, rfl⟩
  | cons frame frames ih =>
      have one : ∃ decoded unknown malformed, decoded + unknown + malformed = 1 ∧
          tally.countFrame frame = tally.more decoded unknown malformed := by
        rw [countFrame_eq_afterOutcome]
        rcases frame.outcome_cases with ⟨message, same⟩ | ⟨cause, same⟩
        · rw [same, afterOutcome]
          split
          · exact ⟨0, 1, 0, rfl, rfl⟩
          · exact ⟨1, 0, 0, rfl, rfl⟩
        · rw [same]
          exact ⟨0, 0, 1, rfl, rfl⟩
      obtain ⟨decoded, unknown, malformed, single, first⟩ := one
      obtain ⟨decoded', unknown', malformed', total, later⟩ := ih (tally.countFrame frame)
      refine ⟨decoded + decoded', unknown + unknown', malformed + malformed', ?_, ?_⟩
      · rw [List.length_cons, ← total]
        omega
      · rw [List.foldl_cons, later, first, more_more]

end Tally

namespace MessageInlet

/-- What a reader takes on its way to a later state of it: the frames between the bytes that were
pending and those that are pending now, with what was read in between. All are counted. -/
structure Takes (inlet : MessageInlet) (frames : List Frame) (next : MessageInlet) : Prop where
  /-- The frames, and what is pending now, are what was pending and what was read. -/
  bytes : ∃ events, inlet.frames.source.Gives FrameInlet.chunkSize events next.frames.source ∧
    inlet.frames.buffer ++ events.flatMap ReadEvent.bytes =
      frames.flatMap Frame.toBytes ++ next.frames.buffer
  /-- The frames fit. -/
  fits : ∀ frame ∈ frames, frame.Fits inlet.frames.limit
  /-- The limit stays. -/
  limit : next.frames.limit = inlet.frames.limit
  /-- The frames are counted, each once. -/
  counted : next.tally = frames.foldl Tally.countFrame inlet.tally

variable {inlet middle next : MessageInlet} {frames later : List Frame}
  {outcome : Except LinkError Message} {skipped : Nat}

/-- Nothing is taken where nothing happens. -/
theorem Takes.refl (inlet : MessageInlet) : inlet.Takes [] inlet :=
  ⟨⟨[], .nil _, List.append_nil _⟩, by simp, rfl, rfl⟩

/-- What is taken first comes before what is taken later: `frames ++ later`. -/
theorem Takes.append (first : inlet.Takes frames middle) (second : middle.Takes later next) :
    inlet.Takes (frames ++ later) next := by
  obtain ⟨events, gives, bytes⟩ := first.bytes
  obtain ⟨events', gives', bytes'⟩ := second.bytes
  refine ⟨⟨events ++ events', gives.append gives', ?_⟩, ?_, second.limit.trans first.limit, ?_⟩
  · rw [List.flatMap_append, ← List.append_assoc, bytes, List.append_assoc, bytes',
      List.flatMap_append, List.append_assoc]
  · intro frame member
    rcases List.mem_append.1 member with early | late
    · exact first.fits frame early
    · rw [← first.limit]
      exact second.fits frame late
  · rw [second.counted, first.counted, List.foldl_append]

/-- Ending the iteration takes nothing. -/
theorem Takes.finish (takes : inlet.Takes frames next) :
    inlet.Takes frames { next with finished := true } :=
  ⟨takes.bytes, takes.fits, takes.limit, takes.counted⟩

/-- **What is taken is counted**: as many frames, each of one kind, `next.tally = inlet.tally.more
decoded unknown malformed`. -/
theorem Takes.exists_eq_more (takes : inlet.Takes frames next) :
    ∃ decoded unknown malformed, decoded + unknown + malformed = frames.length ∧
      next.tally = inlet.tally.more decoded unknown malformed := by
  rw [takes.counted]
  exact Tally.exists_foldl_countFrame_eq_more inlet.tally frames

/-! ## One call -/

/-- **A call takes the frame of its outcome**, `[frame]`, or no frame and reports an error of the
framing. -/
theorem receive_takes (received : inlet.receive = (outcome, next)) :
    (∃ frame, outcome = frame.outcome ∧ inlet.Takes [frame] next) ∨
      ∃ cause, outcome = .error (.frame cause) ∧ inlet.Takes [] next := by
  obtain ⟨events, framed, source, run, gives, call, limit⟩ := inlet.frames.receive_call
  have bytes : inlet.frames.buffer ++ events.flatMap ReadEvent.bytes =
      framed.toOption.toList.flatMap Frame.toBytes ++ source.buffer := call.bytes
  cases framed with
  | error cause =>
      rw [receive, run] at received
      obtain ⟨rfl, rfl⟩ := Prod.mk.inj received
      exact .inr ⟨cause, rfl, ⟨events, gives, bytes⟩, by simp, limit, rfl⟩
  | ok frame =>
      rw [receive_of_ok run] at received
      obtain ⟨rfl, rfl⟩ := Prod.mk.inj received
      have fits : ∀ other ∈ [frame], other.Fits inlet.frames.limit := by
        rintro other (_ | ⟨_, ⟨⟩⟩)
        exact call.fits
      exact .inl ⟨frame, rfl, ⟨events, gives, bytes⟩, fits, limit, rfl⟩

/-- What a call that skips has taken when it ends: the frames in `bad`, which it skipped, and the
frame of its message when there is one. It gives up with the number of frames that were skipped,
those before it included. -/
inductive Skips (inlet next : MessageInlet) (skipped : Nat) (bad : List Frame) :
    Except LinkError Message → Prop where
  /-- A message is found. -/
  | message {frame : Frame} {message : Message} :
      frame.outcome = .ok message → inlet.Takes (bad ++ [frame]) next →
      Skips inlet next skipped bad (.ok message)
  /-- No frame can be read. -/
  | failed {cause : FrameError} :
      inlet.Takes bad next → Skips inlet next skipped bad (.error (.frame cause))
  /-- There were too many. -/
  | tooMany :
      inlet.Takes bad next →
      Skips inlet next skipped bad (.error (.skippedTooMany (skipped + bad.length)))

/-- A call that skips takes some frames. -/
theorem Skips.takes {bad : List Frame} (skips : Skips inlet next skipped bad outcome) :
    ∃ frames, inlet.Takes frames next := by
  cases skips with
  | message _ takes => exact ⟨_, takes⟩
  | failed takes | tooMany takes => exact ⟨bad, takes⟩

/-- A frame skipped before is one frame more. -/
theorem Skips.cons {frame : Frame} {bad : List Frame} (first : inlet.Takes [frame] middle)
    (skips : Skips middle next (skipped + 1) bad outcome) :
    Skips inlet next skipped (frame :: bad) outcome := by
  cases skips with
  | message decoded takes => exact .message decoded (first.append takes)
  | failed takes => exact .failed (first.append takes)
  | tooMany takes =>
      rw [Nat.add_assoc, Nat.add_comm 1]
      exact .tooMany (first.append takes)

/-- A body that cannot be read takes its frame. -/
theorem receive_takes_of_malformed {tag : UInt16} {cause : DecodeError}
    (received : inlet.receive = (.error (.decode tag cause), next)) :
    ∃ frame, isMalformed frame.outcome ∧ inlet.Takes [frame] next := by
  obtain ⟨frame, same, takes⟩ | ⟨_, ⟨⟩, -⟩ := receive_takes received
  exact ⟨frame, by rw [← same]; rfl, takes⟩

/-- **A call that skips takes the frames that it skips**, those in `bad`, and that of its
message. -/
theorem receiveSkipping_takes (skipped : Nat) (inlet : MessageInlet) :
    ∃ bad, (∀ frame ∈ bad, isMalformed frame.outcome) ∧
      Skips inlet (inlet.receiveSkipping skipped).2 skipped bad
        (inlet.receiveSkipping skipped).1 := by
  -- A turn of the loop takes the frame it skips, whatever the limit is, and the rest of the loop
  -- takes the others; only the last turn differs.
  fun_induction receiveSkipping skipped inlet with
  | case1 skipped inlet tag cause following received unlimited ih
  | case3 skipped inlet tag cause following received limit limited more ih =>
      obtain ⟨frame, unread, takes⟩ := receive_takes_of_malformed received
      obtain ⟨bad, each, skips⟩ := ih
      exact ⟨frame :: bad, List.forall_mem_cons.2 ⟨unread, each⟩, skips.cons takes⟩
  | case2 skipped inlet tag cause following received limit limited spent =>
      obtain ⟨frame, unread, takes⟩ := receive_takes_of_malformed received
      exact ⟨[frame], List.forall_mem_cons.2 ⟨unread, by simp⟩, .tooMany takes⟩
  | case4 skipped inlet outcome following other received =>
      refine ⟨[], by simp, ?_⟩
      obtain ⟨frame, rfl, takes⟩ | ⟨cause, rfl, takes⟩ := receive_takes received
      · rcases frame.outcome_cases with ⟨message, decoded⟩ | ⟨cause, unread⟩
        · rw [decoded]
          exact .message decoded takes
        · exact absurd unread (other frame.tag cause)
      · exact .failed takes

/-- **An iteration takes what its call takes**, `[frame]` or no frame, and nothing once it is
over. -/
theorem next_takes {item : Option (Except LinkError Message)} (given : inlet.next = (item, next)) :
    (∃ frame, item = some frame.outcome ∧ inlet.Takes [frame] next) ∨
      ((item = none ∨ ∃ cause, item = some (.error (.frame cause))) ∧ inlet.Takes [] next) := by
  by_cases finished : inlet.finished
  · rw [next_of_finished finished] at given
    obtain ⟨rfl, rfl⟩ := Prod.mk.inj given
    exact .inr ⟨.inl rfl, .refl inlet⟩
  · have unfinished : inlet.finished = false := Bool.eq_false_iff.2 finished
    obtain ⟨outcome, following, received⟩ :
      ∃ outcome following, inlet.receive = (outcome, following) := ⟨_, _, rfl⟩
    obtain ⟨frame, rfl, takes⟩ | ⟨cause, rfl, takes⟩ := receive_takes received
    · rw [next_of_frame unfinished received frame.outcome_ne_frame_error] at given
      obtain ⟨rfl, rfl⟩ := Prod.mk.inj given
      exact .inl ⟨frame, rfl, takes⟩
    · by_cases closed : cause = .closed
      · subst closed
        rw [next_of_closed unfinished received] at given
        obtain ⟨rfl, rfl⟩ := Prod.mk.inj given
        exact .inr ⟨.inl rfl, takes.finish⟩
      · rw [next_of_frame_error unfinished received closed] at given
        obtain ⟨rfl, rfl⟩ := Prod.mk.inj given
        exact .inr ⟨.inr ⟨cause, rfl⟩, takes.finish⟩

/-! ## What is counted by a call -/

/-- **A call is counted by its outcome**: `next.tally = inlet.tally.afterOutcome 0 outcome`. -/
theorem tally_of_receive (received : inlet.receive = (outcome, next)) :
    next.tally = inlet.tally.afterOutcome 0 outcome := by
  obtain ⟨frame, rfl, takes⟩ | ⟨cause, rfl, takes⟩ := receive_takes received
  · rw [takes.counted]
    exact Tally.countFrame_eq_afterOutcome inlet.tally frame
  · exact takes.counted

/-- **A call that skips is counted by its outcome and by what it skips**: `inlet.tally.afterOutcome
bad.length outcome`. -/
theorem Skips.tally {bad : List Frame} (skips : Skips inlet next skipped bad outcome)
    (each : ∀ frame ∈ bad, isMalformed frame.outcome) :
    next.tally = inlet.tally.afterOutcome bad.length outcome := by
  have bodies := Tally.foldl_countFrame_of_malformed inlet.tally each
  cases skips with
  | @message frame message decoded takes =>
      rw [takes.counted, List.foldl_append, bodies, List.foldl_cons, List.foldl_nil,
        Tally.countFrame_eq_afterOutcome, decoded, Tally.afterOutcome_more, Nat.add_zero]
  | failed takes => exact takes.counted.trans bodies
  | tooMany takes => exact takes.counted.trans bodies

/-- **An item is counted like an outcome**, by `afterOutcome 0`, and nothing is counted when there
is none. -/
theorem tally_of_next {item : Option (Except LinkError Message)}
    (given : inlet.next = (item, next)) :
    next.tally = item.elim inlet.tally (inlet.tally.afterOutcome 0) := by
  obtain ⟨frame, rfl, takes⟩ | ⟨rfl | ⟨cause, rfl⟩, takes⟩ := next_takes given
  · rw [takes.counted]
    exact Tally.countFrame_eq_afterOutcome inlet.tally frame
  · exact takes.counted
  · exact takes.counted

/-! ## Whatever is asked -/

/-- Whatever is asked takes some frames. -/
theorem perform_takes (inlet : MessageInlet) (request : Request) :
    ∃ frames, inlet.Takes frames (inlet.perform request).2 := by
  cases request with
  | receive =>
      obtain ⟨frame, -, takes⟩ | ⟨cause, -, takes⟩ :=
        receive_takes (show inlet.receive = (_, _) from rfl)
      · exact ⟨[frame], takes⟩
      · exact ⟨[], takes⟩
  | receiveValid =>
      obtain ⟨bad, -, skips⟩ := receiveSkipping_takes 0 inlet
      exact skips.takes
  | next =>
      obtain ⟨frame, -, takes⟩ | ⟨-, takes⟩ := next_takes (show inlet.next = (_, _) from rfl)
      · exact ⟨[frame], takes⟩
      · exact ⟨[], takes⟩

/-- And so does asking several times. -/
theorem performAll_takes (inlet : MessageInlet) (requests : List Request) :
    ∃ frames, inlet.Takes frames (inlet.performAll requests).2 := by
  induction requests generalizing inlet with
  | nil => exact ⟨[], .refl inlet⟩
  | cons request requests ih =>
      obtain ⟨frames, first⟩ := inlet.perform_takes request
      obtain ⟨later, rest⟩ := ih (inlet.perform request).2
      exact ⟨frames ++ later, first.append rest⟩

/-- **A tally accounts for every frame.** Whatever has been asked of a reader over a source, in any
mixture of calls, the bytes read so far are those of some frames, which fit, and those pending:
`frames.flatMap Frame.toBytes ++ last.frames.buffer`. The tally has as many frames, and each of them
is of one kind. Nothing that is asked then makes a counter smaller. A call that reads one frame, and
an item of the iteration, is counted by its outcome, `afterOutcome 0`: a message or a body that
cannot be read is one frame more, of its kind, and an error of the framing changes nothing. A call
that skips is counted by its outcome and by the frames it skips, each one malformed frame more. -/
theorem tally_accounts (source : Source) (limit : Nat) (skipLimit : Option Nat)
    (requests : List Request) :
    ∃ (answers : List (Option (Except LinkError Message))) (last : MessageInlet)
        (events : List ReadEvent) (frames : List Frame),
      (ofSource source limit skipLimit).performAll requests = (answers, last) ∧
      source.Gives FrameInlet.chunkSize events last.frames.source ∧
      events.flatMap ReadEvent.bytes = frames.flatMap Frame.toBytes ++ last.frames.buffer ∧
      (∀ frame ∈ frames, frame.Fits limit) ∧
      last.tally.frames = frames.length ∧
      last.tally.frames = last.tally.decoded + last.tally.unknown + last.tally.malformed ∧
      (∀ request, last.tally.Grows (last.perform request).2.tally) ∧
      (∀ outcome next, last.receive = (outcome, next) →
        next.tally = last.tally.afterOutcome 0 outcome) ∧
      (∀ outcome next, last.receiveValid = (outcome, next) →
        ∃ bad : List Frame, (∀ frame ∈ bad, isMalformed frame.outcome) ∧
          Skips last next 0 bad outcome ∧
          next.tally = last.tally.afterOutcome bad.length outcome) ∧
      ∀ item next, last.next = (item, next) →
        next.tally = item.elim last.tally (last.tally.afterOutcome 0) := by
  -- Everything asked so far has taken some frames, and their count is the tally.
  obtain ⟨frames, takes⟩ := (ofSource source limit skipLimit).performAll_takes requests
  obtain ⟨events, gives, bytes⟩ := takes.bytes
  obtain ⟨decoded, unknown, malformed, total, counted⟩ := takes.exists_eq_more
  refine ⟨_, _, events, frames, rfl, gives, bytes, takes.fits, ?_, ?_, ?_, ?_, ?_, ?_⟩
  · rw [counted, ← total]
    exact Nat.zero_add _
  · rw [counted]
    simp [Tally.more, ofSource]
  · intro request
    obtain ⟨_, step⟩ := perform_takes _ request
    obtain ⟨decoded', unknown', malformed', -, more⟩ := step.exists_eq_more
    rw [more]
    exact Tally.grows_more ..
  · exact fun outcome next => tally_of_receive
  · intro outcome next received
    obtain ⟨bad, each, skips⟩ := receiveSkipping_takes 0 _
    rw [← receiveValid, received] at skips
    exact ⟨bad, each, skips, skips.tally each⟩
  · exact fun item next => tally_of_next

/-- A fee update cut short and an unknown message are read, and the iteration gives a ping; then the
input ends within a frame. -/
example :
    let frames : List Frame := [⟨134, [0]⟩, ⟨1, [7]⟩, ⟨18, [0, 5, 0, 2, 1, 2]⟩]
    let source : Source := ⟨[.data (frames.flatMap Frame.toBytes ++ [0, 4, 0])], 0⟩
    let requests : List Request := [.receive, .receive, .next, .receive]
    ((ofSource source 10 none).performAll requests).2.tally = ⟨3, 1, 1, 1⟩ := by
  cbv

end MessageInlet

end PeerWire
