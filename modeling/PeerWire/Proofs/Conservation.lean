import PeerWire.Proofs.Reading

/-! # No byte is lost between a source and the frames

An inlet may be asked for frames and told other limits in any order, and its source may cut, fail
and end as it likes. After any of that, the wire forms of the frames returned so far and the bytes
in the buffer are the bytes that the source has delivered, in their order and each of them once.
An inlet asks its source for more only while its buffer leaves open what comes next
(`FrameInlet.performAll_conserves`). -/

namespace PeerWire

namespace Frame

/-- A buffer that leaves open what is in front of it. -/
structure Undecided (buffer : Bytes) (limit : Nat) : Prop where
  /-- No frame within the limit is there. -/
  no_frame : ∀ (frame : Frame) (rest : Bytes), buffer = frame.toBytes ++ rest → ¬frame.Fits limit
  /-- If a length is there, it keeps the limit and has room for a tag. -/
  no_refusal : ∀ declared, declaredBy? buffer = some declared →
    declared ≤ limit ∧ tagWidth ≤ declared

/-- The buffer decoder waits, `takeFrom buffer limit = .ok none`, exactly while nothing is
decided. -/
theorem takeFrom_eq_none_iff {buffer : Bytes} {limit : Nat} :
    takeFrom buffer limit = .ok none ↔ Undecided buffer limit := by
  constructor
  · intro waits
    refine ⟨?_, ?_⟩
    · intro frame rest whole fits
      have taken : takeFrom buffer limit = .ok (some (frame, rest)) :=
        takeFrom_eq_some_iff.2 ⟨whole, fits⟩
      rw [waits] at taken
      cases taken
    · intro declared found
      cases checked : checkDeclared declared limit with
      | ok done => exact checkDeclared_eq_ok_iff.1 checked
      | error cause =>
          have refused := takeFrom_eq_error_iff.2 ⟨declared, found, checked⟩
          rw [waits] at refused
          cases refused
  · intro undecided
    match run : takeFrom buffer limit with
    | .ok none => rfl
    | .ok (some (frame, rest)) =>
        obtain ⟨whole, fits⟩ := takeFrom_eq_some_iff.1 run
        exact absurd fits (undecided.no_frame frame rest whole)
    | .error cause =>
        obtain ⟨declared, found, refused⟩ := takeFrom_eq_error_iff.1 run
        have checked : checkDeclared declared limit = .ok () :=
          checkDeclared_eq_ok_iff.2 (undecided.no_refusal declared found)
        rw [checked] at refused
        cases refused

end Frame

namespace FrameInlet

/-! ## The reads of a call -/

section Calls

variable {limit : Nat} {pending left : Bytes} {events : List ReadEvent}
  {outcome : Except FrameError Frame}

/-- Before each read of a call, what was pending and what has arrived since, `pending ++
earlier.flatMap ReadEvent.bytes`, leave open what comes next. -/
theorem Call.undecided (call : Call limit pending events outcome left)
    {earlier later : List ReadEvent} {event : ReadEvent}
    (cut : events = earlier ++ event :: later) :
    Frame.Undecided (pending ++ earlier.flatMap ReadEvent.bytes) limit := by
  have first {pending : Bytes} (waits : Frame.takeFrom pending limit = .ok none) :
      Frame.Undecided (pending ++ ([] : List ReadEvent).flatMap ReadEvent.bytes) limit := by
    rw [List.flatMap_nil, List.append_nil]
    exact Frame.takeFrom_eq_none_iff.1 waits
  -- The first read is made on what was pending, all others are reads of the rest of the call.
  induction call generalizing earlier with
  | frame _ | refused _ => simp at cut
  | ended waits | failed waits _ =>
      cases earlier with
      | nil => exact first waits
      | cons read earlier => simp at cut
  | data waits _ ih =>
      cases earlier with
      | nil => exact first waits
      | cons read earlier =>
          obtain ⟨rfl, rest⟩ := List.cons.inj cut
          have undecided := ih rest
          rw [List.append_assoc] at undecided
          exact undecided
  | interrupted waits _ ih =>
      cases earlier with
      | nil => exact first waits
      | cons read earlier =>
          -- An interrupted read brings no bytes.
          obtain ⟨rfl, rest⟩ := List.cons.inj cut
          have undecided := ih rest
          exact undecided

/-- A call that fails keeps all that was pending and all that has arrived: `left = pending ++
events.flatMap ReadEvent.bytes`. -/
theorem Call.left_of_error {error : FrameError}
    (call : Call limit pending events (.error error) left) :
    left = pending ++ events.flatMap ReadEvent.bytes :=
  call.bytes.symm

end Calls

/-! ## Calls and limits in any order -/

/-- What can be asked of an inlet. -/
inductive Request where
  /-- To return the next frame. -/
  | receive
  /-- To keep another limit from now on. -/
  | setLimit (limit : Nat)

/-- Does what is asked. Only a call for a frame has an outcome; for a new limit it is `none`. -/
def perform (inlet : FrameInlet) : Request → Option (Except FrameError Frame) × FrameInlet
  | .receive =>
      match inlet.receive with
      | (outcome, next) => (some outcome, next)
  | .setLimit limit => (none, inlet.withLimit limit)

/-- Does what is asked one after the other, whatever comes of it. -/
def performAll (inlet : FrameInlet) :
    List Request → List (Except FrameError Frame) × FrameInlet
  | [] => ([], inlet)
  | request :: requests =>
      match inlet.perform request with
      | (outcome, next) =>
          match performAll next requests with
          | (outcomes, last) => (outcome.toList ++ outcomes, last)

/-- The frame of one outcome. -/
theorem framesOf_singleton (outcome : Except FrameError Frame) :
    framesOf [outcome] = outcome.toOption.toList :=
  List.append_nil _

/-- The frames of `outcomes ++ later`. -/
theorem framesOf_append (outcomes later : List (Except FrameError Frame)) :
    framesOf (outcomes ++ later) = framesOf outcomes ++ framesOf later :=
  List.flatMap_append

/-- A request returns or keeps what was in `inlet.buffer` and what it makes the source deliver. -/
theorem perform_conserves (inlet : FrameInlet) (request : Request) :
    ∃ outcome events next, inlet.perform request = (outcome, next) ∧
      inlet.source.Gives chunkSize events next.source ∧
      inlet.buffer ++ events.flatMap ReadEvent.bytes =
        (framesOf outcome.toList).flatMap Frame.toBytes ++ next.buffer := by
  cases request with
  | receive =>
      obtain ⟨events, outcome, next, run, gives, call, -⟩ := inlet.receive_call
      refine ⟨some outcome, events, next, ?_, gives, ?_⟩
      · rw [perform, run]
      · show _ = (framesOf [outcome]).flatMap Frame.toBytes ++ next.buffer
        rw [framesOf_singleton, call.bytes]
  | setLimit limit => exact ⟨none, [], inlet.withLimit limit, rfl, .nil _, List.append_nil _⟩

/-- So do requests one after the other. -/
theorem performAll_bytes (inlet : FrameInlet) (requests : List Request) :
    ∃ outcomes events next, inlet.performAll requests = (outcomes, next) ∧
      inlet.source.Gives chunkSize events next.source ∧
      inlet.buffer ++ events.flatMap ReadEvent.bytes =
        (framesOf outcomes).flatMap Frame.toBytes ++ next.buffer := by
  induction requests generalizing inlet with
  | nil => exact ⟨[], [], inlet, rfl, .nil _, List.append_nil _⟩
  | cons request requests ih =>
      obtain ⟨outcome, events, middle, run, gives, first⟩ := inlet.perform_conserves request
      obtain ⟨outcomes, later, next, runs, gives', rest⟩ := ih middle
      refine ⟨outcome.toList ++ outcomes, events ++ later, next, ?_, gives.append gives', ?_⟩
      · rw [performAll, run]
        simp only [runs]
      · calc inlet.buffer ++ (events ++ later).flatMap ReadEvent.bytes
            = inlet.buffer ++ events.flatMap ReadEvent.bytes ++ later.flatMap ReadEvent.bytes := by
              rw [List.flatMap_append, List.append_assoc]
          _ = (framesOf outcome.toList).flatMap Frame.toBytes ++
                (middle.buffer ++ later.flatMap ReadEvent.bytes) := by
              rw [first, List.append_assoc]
          _ = (framesOf (outcome.toList ++ outcomes)).flatMap Frame.toBytes ++ next.buffer := by
              rw [rest, framesOf_append, List.flatMap_append, List.append_assoc]

/-- **No byte is lost, and none is there twice.** Whatever is asked of an inlet, the frames that it
has returned and its buffer are what its source has delivered: `(framesOf outcomes).flatMap
Frame.toBytes ++ inlet.buffer = events.flatMap ReadEvent.bytes`. The next call, if it fails, keeps
all of its buffer and all that arrives meanwhile, whatever it fails with. It makes each of its reads
while what it has leaves open what comes next: no frame within the limit is there, nor a length that
is over the limit or has no room for a tag. -/
theorem performAll_conserves (source : Source) (limit : Nat) (requests : List Request) :
    ∃ outcomes events inlet, performAll { source, limit } requests = (outcomes, inlet) ∧
      source.Gives chunkSize events inlet.source ∧
      (framesOf outcomes).flatMap Frame.toBytes ++ inlet.buffer =
        events.flatMap ReadEvent.bytes ∧
      ∃ reads outcome next, inlet.receive = (outcome, next) ∧
        inlet.source.Gives chunkSize reads next.source ∧
        (∀ error, outcome = .error error →
          next.buffer = inlet.buffer ++ reads.flatMap ReadEvent.bytes) ∧
        ∀ earlier event later, reads = earlier ++ event :: later →
          Frame.Undecided (inlet.buffer ++ earlier.flatMap ReadEvent.bytes) inlet.limit := by
  obtain ⟨outcomes, events, inlet, run, gives, bytes⟩ :=
    performAll_bytes { source, limit } requests
  obtain ⟨reads, outcome, next, received, reading, call, -⟩ := inlet.receive_call
  refine ⟨outcomes, events, inlet, run, gives, ?_, reads, outcome, next, received, reading, ?_, ?_⟩
  · rw [← bytes]
    rfl
  · rintro error rfl
    exact call.left_of_error
  · intro earlier event later cut
    exact call.undecided cut

/-- A read fails within a frame, the limit is lowered below the length that is there and raised
again: the frame is returned whole. -/
example :
    let script : List ReadEvent := [.data [0, 4, 0], .fault .timedOut, .data [18, 7], .data [8]]
    (performAll { source := ⟨script, 0⟩ }
      [.receive, .setLimit 3, .receive, .setLimit 4, .receive]).1 =
      [.error (.transport .timedOut), .error (.oversize 4 3), .ok ⟨18, [7, 8]⟩] := by
  cbv

end FrameInlet

end PeerWire
