import PeerWire.Frame.Incremental
import PeerWire.Proofs.Reading
import PeerWire.Proofs.Transfer

/-! # Bytes that come in chunks

A codec that is fed chunk by chunk takes what frames it can off its buffer after each of them, and
off what is left after the last one. The frames that it takes and the way in which it ends are those
of all the bytes read one frame after the other, whatever the chunks are; an inlet that is given the
same bytes in any way returns the same frames and reports the same end
(`FrameCodec.feed_independent`). -/

namespace PeerWire

namespace FrameCodec

variable {codec : FrameCodec} {buffer rest : Bytes} {frame : Frame} {error : FrameError}

/-! ## At the end of the input -/

/-- At the end `decodeEnd` takes the frames that `Frame.takeFrom` takes before. -/
theorem decodeEnd_eq_some_iff :
    codec.decodeEnd buffer = .ok (some (frame, rest)) ↔
      Frame.takeFrom buffer codec.limit = .ok (some (frame, rest)) := by
  unfold decodeEnd decode
  cases run : Frame.takeFrom buffer codec.limit with
  | error cause => rfl
  | ok taken =>
      cases taken with
      | some found => rfl
      | none =>
          by_cases empty : buffer.isEmpty
          · simp [empty]
          · simp [empty]

/-- The end is clean when `buffer = []`. -/
theorem decodeEnd_eq_none_iff : codec.decodeEnd buffer = .ok none ↔ buffer = [] := by
  constructor
  · intro clean
    unfold decodeEnd at clean
    split at clean
    · cases clean
    · cases clean
    · split at clean
      · rename_i empty
        exact List.isEmpty_iff.1 empty
      · cases clean
  · rintro rfl
    rfl

/-- What is left and not read as a frame is reported as it is by `Frame.read`. -/
theorem decodeEnd_eq_error_iff :
    codec.decodeEnd buffer = .error error ↔
      buffer ≠ [] ∧ Frame.read buffer codec.limit = .error error := by
  rw [Frame.read_eq]
  unfold decodeEnd decode
  cases run : Frame.takeFrom buffer codec.limit with
  | error cause =>
      have nonempty : buffer ≠ [] := by
        rintro rfl
        cases run
      simp [nonempty]
  | ok taken =>
      cases taken with
      | some found => simp
      | none =>
          by_cases empty : buffer = []
          · simp [empty]
          · simp [empty]

/-! ## Frame after frame off a buffer -/

/-- A step that takes a frame off a buffer, or none. -/
structure Taker (limit : Nat) where
  /-- The step. -/
  take : Bytes → Except FrameError (Option (Frame × Bytes))
  /-- It takes the frames that are in front. -/
  take_eq_some_iff {buffer rest : Bytes} {frame : Frame} :
    take buffer = .ok (some (frame, rest)) ↔
      Frame.takeFrom buffer limit = .ok (some (frame, rest))

/-- The step before the end of the input. -/
def taker (codec : FrameCodec) : Taker codec.limit := ⟨codec.decode, Iff.rfl⟩

/-- The step at the end of the input. -/
def endTaker (codec : FrameCodec) : Taker codec.limit := ⟨codec.decodeEnd, decodeEnd_eq_some_iff⟩

/-- A frame that is taken leaves fewer bytes: `rest.length < buffer.length`. -/
theorem Taker.length_lt {limit : Nat} (taker : Taker limit)
    (taken : taker.take buffer = .ok (some (frame, rest))) : rest.length < buffer.length := by
  have whole := Frame.eq_of_takeFrom (taker.take_eq_some_iff.1 taken)
  rw [whole, List.length_append, Frame.length_toBytes, Frame.wireLength, Frame.lengthWidth]
  omega

/-- Takes frames until a step takes none or fails: the frames, the error of the last step if it
failed, and what is left. -/
def Taker.takeAll {limit : Nat} (taker : Taker limit) (buffer : Bytes) :
    List Frame × Option FrameError × Bytes :=
  match _run : taker.take buffer with
  | .error error => ([], some error, buffer)
  | .ok none => ([], none, buffer)
  | .ok (some (frame, rest)) =>
      match takeAll taker rest with
      | (frames, ended) => (frame :: frames, ended)
  termination_by buffer.length
  decreasing_by exact taker.length_lt _run

/-- Feeds chunks to a buffer one by one, taking frames after each of them, and takes the frames that
are left after the last one, as those at the end of the input: all frames, and the error with which
this ends unless the end is clean. Where a step fails, the run either `stops` or goes on to the next
chunk all the same. -/
def feed (codec : FrameCodec) (stops : Bool) (buffer : Bytes) :
    List Bytes → List Frame × Option FrameError
  | [] =>
      match codec.endTaker.takeAll buffer with
      | (frames, ended, _) => (frames, ended)
  | chunk :: chunks =>
      match codec.taker.takeAll (buffer ++ chunk) with
      | (frames, ended, left) =>
          if stops && ended.isSome then (frames, ended)
          else
            match feed codec stops left chunks with
            | (later, last) => (frames ++ later, last)

/-- How the steps ended, by what the last one said of what is left. -/
inductive Taker.Halts {limit : Nat} (taker : Taker limit) : Bytes → Option FrameError → Prop where
  /-- It took no frame. -/
  | waits {left : Bytes} : taker.take left = .ok none → Halts taker left none
  /-- It failed. -/
  | fails {left : Bytes} {error : FrameError} :
      taker.take left = .error error → Halts taker left (some error)

/-- **Steps take the frames in front**, those of `Frame.readAll`, and end at what is left of
them. -/
theorem Taker.takeAll_eq {limit : Nat} (taker : Taker limit) (buffer : Bytes) :
    ∃ frames left ended, Frame.readAll limit buffer = (frames, left) ∧
      taker.takeAll buffer = (frames, ended, left) ∧ taker.Halts left ended := by
  have none_of {buffer : Bytes}
      (nothing : ∀ frame rest, taker.take buffer ≠ .ok (some (frame, rest))) :
      Frame.readAll limit buffer = ([], buffer) :=
    Frame.readAll_of_not_taken fun frame rest taken =>
      nothing frame rest (taker.take_eq_some_iff.2 taken)
  fun_induction takeAll taker buffer with
  | case1 buffer error run =>
      exact ⟨[], buffer, some error, none_of (by simp [run]), rfl, .fails run⟩
  | case2 buffer run => exact ⟨[], buffer, none, none_of (by simp [run]), rfl, .waits run⟩
  | case3 buffer frame rest run frames ended all ih =>
      obtain ⟨frames', left, ended', read, same, halts⟩ := ih
      rw [all] at same
      cases same
      refine ⟨frame :: frames, left, ended', ?_, rfl, halts⟩
      rw [Frame.readAll_of_some (taker.take_eq_some_iff.1 run), read]

/-! ## Chunk after chunk -/

/-- At the end of the input, what the last step says of what is left is how reading ends. -/
theorem ending_of_halts {left : Bytes} {ended : Option FrameError}
    (halts : codec.endTaker.Halts left ended) : Frame.Ending codec.limit left ended := by
  cases halts with
  | waits run =>
      obtain rfl := decodeEnd_eq_none_iff.1 run
      exact .clean
  | fails run =>
      obtain ⟨nonempty, read⟩ := decodeEnd_eq_error_iff.1 run
      exact .broken nonempty read

/-- **What comes of a run is what comes of all its bytes**: `feed stops buffer chunks` gives the
frames of `Frame.readAll` in `buffer ++ chunks.flatten` and ends as they do. -/
theorem feed_eq (codec : FrameCodec) (stops : Bool) (buffer : Bytes) (chunks : List Bytes) :
    ∃ frames left ending, Frame.readAll codec.limit (buffer ++ chunks.flatten) = (frames, left) ∧
      Frame.Ending codec.limit left ending ∧ codec.feed stops buffer chunks = (frames, ending) := by
  induction chunks generalizing buffer with
  | nil =>
      obtain ⟨frames, left, ended, read, all, halts⟩ := codec.endTaker.takeAll_eq buffer
      refine ⟨frames, left, ended, ?_, ending_of_halts halts, ?_⟩
      · rw [List.flatten_nil, List.append_nil]
        exact read
      · rw [feed, all]
  | cons chunk chunks ih =>
      obtain ⟨frames, left, ended, read, all, halts⟩ := codec.taker.takeAll_eq (buffer ++ chunk)
      -- The frames so far are the first of all, whatever is still to come.
      have whole : Frame.readAll codec.limit (buffer ++ (chunk :: chunks).flatten) =
          (frames ++ (Frame.readAll codec.limit (left ++ chunks.flatten)).1,
            (Frame.readAll codec.limit (left ++ chunks.flatten)).2) := by
        rw [List.flatten_cons, ← List.append_assoc, Frame.readAll_append, read]
      rw [feed, all, whole]
      by_cases done : (stops && ended.isSome) = true
      · cases halts with
        | waits run => simp at done
        | fails run =>
            -- A length that is refused ends the run there, whatever comes after it.
            have refused := Frame.takeFrom_append_of_error run chunks.flatten
            refine ⟨frames, left ++ chunks.flatten, _, ?_, .of_error refused, ?_⟩
            · rw [Frame.readAll_of_error refused, List.append_nil]
            · simp only [done, if_true]
      · obtain ⟨later, left', ending, read', ends, run⟩ := ih left
        refine ⟨frames ++ later, left', ending, ?_, ends, ?_⟩
        · rw [read']
        · simp only [done, run]
          rfl

end FrameCodec

/-! ## The same bytes from a source -/

/-- The reads of a flowing source leave it flowing, fail only to be repeated, and find an end only
where nothing is left. -/
theorem Source.Flowing.gives {limit : Nat} {source next : Source} {events : List ReadEvent}
    (flowing : source.Flowing) (positive : 0 < limit) (gives : source.Gives limit events next) :
    next.Flowing ∧ (∀ fault, .fault fault ∈ events → fault = .interrupted) ∧
      (.data [] ∈ events → next.pending = []) := by
  induction gives with
  | nil source => exact ⟨flowing, by simp, by simp⟩
  | @cons source middle next event events found rest ih =>
      obtain ⟨stays, dry, fault⟩ := flowing.read found
      obtain ⟨last, faults, dries⟩ := ih stays
      refine ⟨last, ?_, ?_⟩
      · rintro cause (_ | ⟨_, member⟩)
        · exact fault cause rfl
        · exact faults cause member
      · rintro (_ | ⟨_, member⟩)
        · -- Where nothing was left before the read, nothing is left after all of them.
          have nothing : source.pending = [] := dry rfl positive
          rw [← Gives.pending (.cons found rest)] at nothing
          exact (List.append_eq_nil_iff.1 nothing).2
        · exact dries member

namespace FrameInlet

/-- At the end of the input, what is pending is reported as the end that it is, `ending.getD
.closed`. -/
theorem endError_of_ending {limit : Nat} {pending : Bytes} {ending : Option FrameError}
    (waits : Frame.takeFrom pending limit = .ok none)
    (ends : Frame.Ending limit pending ending) : endError pending = ending.getD .closed := by
  cases ends with
  | clean => rfl
  | broken nonempty run =>
      rw [Frame.read_eq, waits] at run
      have there : ¬pending.isEmpty = true := fun empty => nonempty (List.isEmpty_iff.1 empty)
      rw [endError, if_neg there]
      exact Except.error.inj run

/-- A call on bytes with no frame in front, of which some may be still to come, reports the end that
they are. -/
theorem Call.of_ending {limit : Nat} {pending left later : Bytes} {events : List ReadEvent}
    {outcome : Except FrameError Frame} {ending : Option FrameError}
    (call : Call limit pending events outcome left)
    (faults : ∀ fault, .fault fault ∈ events → fault = .interrupted)
    (dry : .data [] ∈ events → later = [])
    (ends : Frame.Ending limit (pending ++ (events.flatMap ReadEvent.bytes ++ later)) ending) :
    outcome = .error (ending.getD .closed) := by
  induction call with
  | frame taken => exact absurd (Frame.takeFrom_append_of_some taken later) ends.not_taken
  | refused refused =>
      obtain rfl := ends.unique (.of_error (Frame.takeFrom_append_of_error refused later))
      rfl
  | @ended pending waits =>
      -- The input has ended, so the bytes are those that are pending.
      obtain rfl : later = [] := dry List.mem_cons_self
      have ends' : Frame.Ending limit pending ending := by simpa [ReadEvent.bytes] using ends
      rw [endError_of_ending waits ends']
  | failed _ other => exact absurd (faults _ List.mem_cons_self) other
  | data _ _ ih =>
      refine ih (fun fault member => faults fault (List.mem_cons_of_mem _ member))
        (fun member => dry (List.mem_cons_of_mem _ member)) ?_
      rw [List.flatMap_cons, List.append_assoc] at ends
      rw [List.append_assoc]
      exact ends
  | interrupted _ _ ih =>
      exact ih (fun fault member => faults fault (List.mem_cons_of_mem _ member))
        (fun member => dry (List.mem_cons_of_mem _ member)) ends

/-- Bytes with no frame in front are reported as the end that they are, and kept. -/
theorem receive_of_ending {inlet : FrameInlet} {ending : Option FrameError}
    (flowing : inlet.source.Flowing)
    (ends : Frame.Ending inlet.limit (inlet.buffer ++ inlet.source.pending) ending) :
    ∃ next, inlet.receive = (.error (ending.getD .closed), next) ∧ next.limit = inlet.limit ∧
      next.buffer ++ next.source.pending = inlet.buffer ++ inlet.source.pending ∧
      next.source.Flowing := by
  obtain ⟨events, outcome, next, run, gives, call, limit⟩ := inlet.receive_call
  obtain ⟨stays, faults, dry⟩ := flowing.gives (by decide) gives
  have arrived := gives.pending
  rw [← arrived] at ends
  obtain rfl := call.of_ending faults dry ends
  refine ⟨next, run, limit, ?_, stays⟩
  have kept : inlet.buffer ++ events.flatMap ReadEvent.bytes = next.buffer := call.bytes
  rw [← arrived, ← List.append_assoc, kept]

/-- So do all calls. -/
theorem receiveMany_of_ending {inlet : FrameInlet} {ending : Option FrameError}
    (flowing : inlet.source.Flowing)
    (ends : Frame.Ending inlet.limit (inlet.buffer ++ inlet.source.pending) ending) (count : Nat) :
    (inlet.receiveMany count).1 = List.replicate count (.error (ending.getD .closed)) := by
  induction count generalizing inlet with
  | zero => rfl
  | succ count ih =>
      obtain ⟨next, run, limit, whole, flowing'⟩ := receive_of_ending flowing ends
      rw [← limit, ← whole] at ends
      rw [receiveMany, run, List.replicate_succ]
      simp only [ih flowing' ends]

/-- Frames that fit are returned one after the other, and the bytes after them are left to be
read. -/
theorem receiveMany_of_frames {inlet : FrameInlet} {frames : List Frame} {later : Bytes}
    (flowing : inlet.source.Flowing) (fits : ∀ frame ∈ frames, frame.Fits inlet.limit)
    (whole : inlet.buffer ++ inlet.source.pending = frames.flatMap Frame.toBytes ++ later) :
    ∃ next, inlet.receiveMany frames.length = (frames.map .ok, next) ∧ next.limit = inlet.limit ∧
      next.buffer ++ next.source.pending = later ∧ next.source.Flowing := by
  induction frames generalizing inlet with
  | nil => exact ⟨inlet, rfl, rfl, whole, flowing⟩
  | cons frame frames ih =>
      rw [List.flatMap_cons, List.append_assoc] at whole
      obtain ⟨middle, first, limit, left, flowing'⟩ :=
        receive_of_frame flowing (fits frame List.mem_cons_self) whole
      obtain ⟨next, rest, limit', left', flowing''⟩ := ih flowing' (fun other member => by
        rw [limit]
        exact fits other (List.mem_cons_of_mem _ member)) left
      refine ⟨next, ?_, limit'.trans limit, left', flowing''⟩
      rw [List.length_cons, receiveMany, first]
      simp only [rest, List.map_cons]

/-- **A flowing source gives the frames of its bytes**, `frames.map .ok`, and then the end that they
come to, `ending.getD .closed`, as often as it is asked for. -/
theorem receiveMany_of_readAll (inlet : FrameInlet) {frames : List Frame} {left : Bytes}
    {ending : Option FrameError} (flowing : inlet.source.Flowing)
    (all : Frame.readAll inlet.limit (inlet.buffer ++ inlet.source.pending) = (frames, left))
    (ends : Frame.Ending inlet.limit left ending) (more : Nat) :
    (inlet.receiveMany (frames.length + more)).1 =
      frames.map .ok ++ List.replicate more (.error (ending.getD .closed)) := by
  obtain ⟨whole, fits⟩ := Frame.eq_flatMap_append_of_readAll all
  obtain ⟨next, first, limit, rest, flowing'⟩ := receiveMany_of_frames flowing fits whole
  rw [← limit, ← rest] at ends
  rw [receiveMany_add more first, receiveMany_of_ending flowing' ends]

/-- Two inlets with the same bytes to come, from flowing sources, have the same outcomes. -/
theorem receiveMany_congr {inlet inlet' : FrameInlet} (flowing : inlet.source.Flowing)
    (flowing' : inlet'.source.Flowing) (limit : inlet.limit = inlet'.limit)
    (bytes : inlet.buffer ++ inlet.source.pending = inlet'.buffer ++ inlet'.source.pending)
    (count : Nat) : (inlet.receiveMany count).1 = (inlet'.receiveMany count).1 := by
  obtain ⟨frames, left, all⟩ :
      ∃ frames left, Frame.readAll inlet.limit (inlet.buffer ++ inlet.source.pending) =
        (frames, left) := ⟨_, _, rfl⟩
  obtain ⟨ending, ends⟩ := Frame.exists_ending inlet.limit (inlet.buffer ++ inlet.source.pending)
  rw [all] at ends
  -- Both go on to the same end, and their first outcomes are the first of the same list.
  have long := receiveMany_of_readAll inlet flowing all ends count
  rw [limit] at ends
  rw [limit, bytes] at all
  have long' := receiveMany_of_readAll inlet' flowing' all ends count
  have first := receiveMany_add frames.length (show inlet.receiveMany count = (_, _) from rfl)
  have first' := receiveMany_add frames.length (show inlet'.receiveMany count = (_, _) from rfl)
  rw [Nat.add_comm, long, ← long', Nat.add_comm, first'] at first
  refine (List.append_inj first ?_).1.symm
  rw [length_receiveMany, length_receiveMany]

end FrameInlet

/-- **How bytes are cut does not show.** Some `bytes` have a sequence of frames in front, and with
what is left of them reading comes to an end: `Frame.readAll limit bytes = (frames, left)` and
`Frame.Ending limit left ending`, with `ending = none` if nothing is left. A codec that is fed any
`chunks` with `chunks.flatten = bytes`, be some of them empty, answers `(frames, ending)`, whether
it stops at the first error or not. An inlet returns the same frames from a source that gives the
bytes in any chunks, interrupted or not, and then reports `ending.getD .closed`, a clean end as a
closed stream. -/
theorem FrameCodec.feed_independent (limit : Nat) (bytes : Bytes) :
    ∃ frames left ending, Frame.readAll limit bytes = (frames, left) ∧
      Frame.Ending limit left ending ∧
      (∀ (chunks : List Bytes) (stops : Bool), chunks.flatten = bytes →
        feed ⟨limit⟩ stops [] chunks = (frames, ending)) ∧
      ∀ source : Source, source.Flowing → source.pending = bytes → ∀ more,
        (FrameInlet.receiveMany (frames.length + more) { source, limit }).1 =
          frames.map .ok ++ List.replicate more (.error (ending.getD .closed)) := by
  obtain ⟨ending, ends⟩ := Frame.exists_ending limit bytes
  refine ⟨_, _, ending, rfl, ends, ?_, ?_⟩
  · rintro chunks stops rfl
    obtain ⟨frames, left, ending', all, ends', run⟩ := feed_eq ⟨limit⟩ stops [] chunks
    rw [List.nil_append] at all
    rw [all] at ends ⊢
    rw [run, ends.unique ends']
  · rintro source flowing rfl more
    exact FrameInlet.receiveMany_of_readAll { source, limit } flowing rfl ends more

/-- A length comes in two chunks, with an empty one in between, and the last frame lacks its end. -/
example :
    FrameCodec.feed {} true [] [[0], [], [2, 0, 18, 0], [3, 1]] =
      ([⟨18, []⟩], some (.truncated 5 3)) := by
  cbv

end PeerWire
