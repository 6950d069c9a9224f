import PeerWire.Frame.Inlet
import PeerWire.Proofs.Unframing

/-! # What an inlet reports of a source

A source may cut its bytes in any way, fail any read and end at any place, to go on after that. A
`Call` says what one call of an inlet does, by the bytes that are pending before it: the reads it
makes, its outcome, and the bytes that are pending after it. A `Course` is a run of calls. Whatever
the reads are, the frames that are returned are those of the bytes that arrived, in their order;
each failing read and each end of the input is reported once, where it happens; and a refused length
is reported from then on (`FrameInlet.receiveMany_outcomes`). -/

namespace PeerWire

/-! ## Reading a source several times -/

namespace Source

/-- Reading a source of at most `limit` bytes at a time gives some answers, one after the other, and
leaves another source. -/
inductive Gives (limit : Nat) : Source → List ReadEvent → Source → Prop where
  /-- Nothing was read. -/
  | nil (source : Source) : Gives limit source [] source
  /-- One read and the reads after it. -/
  | cons {source middle next : Source} {event : ReadEvent} {events : List ReadEvent} :
      source.read limit = (event, middle) → Gives limit middle events next →
      Gives limit source (event :: events) next

variable {limit : Nat} {source middle next : Source} {events later : List ReadEvent}

/-- Reads after others, `events ++ later`. -/
theorem Gives.append (first : Gives limit source events middle)
    (second : Gives limit middle later next) : Gives limit source (events ++ later) next := by
  induction first with
  | nil => exact second
  | cons read _ ih => exact .cons read (ih second)

/-- What the reads gave and what is still to be read are what was to be read: `events.flatMap
ReadEvent.bytes ++ next.pending = source.pending`. -/
theorem Gives.pending (gives : Gives limit source events next) :
    events.flatMap ReadEvent.bytes ++ next.pending = source.pending := by
  induction gives with
  | nil => rfl
  | cons read _ ih => rw [List.flatMap_cons, List.append_assoc, ih, pending_read read]

/-- A read finds the script used up, or uses up some of it. -/
theorem spent_or_size_lt_of_read {event : ReadEvent} (positive : 0 < limit)
    (found : source.read limit = (event, next)) :
    (event = .data [] ∧ next.script = []) ∨ next.size < source.size := by
  by_cases empty : event = .data []
  · subst empty
    obtain ⟨script, reads⟩ := source
    unfold read at found
    match script with
    | [] =>
        obtain ⟨-, rfl⟩ := Prod.mk.inj found
        exact .inl ⟨rfl, rfl⟩
    | .fault fault :: script => cases found
    | .data bytes :: script =>
        simp only at found
        split at found
        · obtain ⟨-, rfl⟩ := Prod.mk.inj found
          right
          simp [size, ReadEvent.size]
        · rename_i more
          -- Bytes beyond the limit cannot be left where none were read.
          have none : bytes.take limit = [] := ReadEvent.data.inj (Prod.mk.inj found).1
          rw [List.take_eq_nil_iff] at none
          rcases none with zero | rfl
          · omega
          · simp at more
  · exact .inr (size_read positive empty found)

end Source

/-! ## One call -/

namespace FrameInlet

/-- What one call does, by the bytes pending before it: the reads it makes, its outcome, and the
bytes pending after it. -/
inductive Call (limit : Nat) : Bytes → List ReadEvent → Except FrameError Frame → Bytes → Prop where
  /-- A frame is there and is returned. -/
  | frame {pending left : Bytes} {frame : Frame} :
      Frame.takeFrom pending limit = .ok (some (frame, left)) →
      Call limit pending [] (.ok frame) left
  /-- A length is there and is refused; nothing is taken. -/
  | refused {pending : Bytes} {error : FrameError} :
      Frame.takeFrom pending limit = .error error → Call limit pending [] (.error error) pending
  /-- The input ends. -/
  | ended {pending : Bytes} :
      Frame.takeFrom pending limit = .ok none →
      Call limit pending [.data []] (.error (endError pending)) pending
  /-- A read fails. -/
  | failed {pending : Bytes} {fault : TransportFault} :
      Frame.takeFrom pending limit = .ok none → fault ≠ .interrupted →
      Call limit pending [.fault fault] (.error (.transport fault)) pending
  /-- Bytes arrive and are looked at. -/
  | data {pending left bytes : Bytes} {byte : UInt8} {events : List ReadEvent}
      {outcome : Except FrameError Frame} :
      Frame.takeFrom pending limit = .ok none →
      Call limit (pending ++ byte :: bytes) events outcome left →
      Call limit pending (.data (byte :: bytes) :: events) outcome left
  /-- An interrupted read is made again. -/
  | interrupted {pending left : Bytes} {events : List ReadEvent}
      {outcome : Except FrameError Frame} :
      Frame.takeFrom pending limit = .ok none → Call limit pending events outcome left →
      Call limit pending (.fault .interrupted :: events) outcome left

/-- **Every call is such a call**: `inlet.receive` makes the reads of a `Call` and has its
outcome. -/
theorem receive_call (inlet : FrameInlet) :
    ∃ events outcome next, inlet.receive = (outcome, next) ∧
      Source.Gives chunkSize inlet.source events next.source ∧
      Call inlet.limit inlet.buffer events outcome next.buffer ∧ next.limit = inlet.limit := by
  fun_induction receive inlet with
  | case1 inlet error refused => exact ⟨[], _, inlet, rfl, .nil _, .refused refused, rfl⟩
  | case2 inlet frame buffer taken => exact ⟨[], _, _, rfl, .nil _, .frame taken, rfl⟩
  | case3 inlet waits source read =>
      exact ⟨_, _, _, rfl, .cons read (.nil _), .ended waits, rfl⟩
  | case4 inlet waits byte bytes source read ih =>
      obtain ⟨events, outcome, next, run, gives, call, limit⟩ := ih
      exact ⟨_, outcome, next, run, .cons read gives, .data waits call, limit⟩
  | case5 inlet waits source read ih =>
      obtain ⟨events, outcome, next, run, gives, call, limit⟩ := ih
      exact ⟨_, outcome, next, run, .cons read gives, .interrupted waits call, limit⟩
  | case6 inlet waits fault source read other =>
      exact ⟨_, _, _, rfl, .cons read (.nil _), .failed waits other, rfl⟩

namespace Call

variable {limit : Nat} {pending left : Bytes} {events : List ReadEvent}
  {outcome : Except FrameError Frame} {error : FrameError}

/-- A returned frame, the bytes still pending, and nothing else, are the bytes that were pending and
those that arrived, `pending ++ events.flatMap ReadEvent.bytes`. -/
theorem bytes (call : Call limit pending events outcome left) :
    pending ++ events.flatMap ReadEvent.bytes =
      outcome.toOption.toList.flatMap Frame.toBytes ++ left := by
  induction call with
  | frame taken =>
      rw [Frame.eq_of_takeFrom taken]
      simp [Except.toOption]
  | refused _ => exact List.append_nil _
  | ended _ => exact List.append_nil _
  | failed _ _ => exact List.append_nil _
  | data _ _ ih =>
      rw [← ih, List.flatMap_cons, List.append_assoc]
      rfl
  | interrupted _ _ ih => exact ih

/-- A returned frame keeps the limit. -/
theorem fits {frame : Frame} (call : Call limit pending events (.ok frame) left) :
    frame.Fits limit := by
  generalize returned : (Except.ok frame : Except FrameError Frame) = outcome at call
  induction call with
  | frame taken =>
      cases returned
      exact (Frame.takeFrom_eq_some_iff.1 taken).2
  | refused _ | ended _ | failed _ _ => cases returned
  | data _ _ ih | interrupted _ _ ih => exact ih returned

/-- A returned frame is the first in the bytes pending, and what comes after it is untouched,
whatever `more` is. -/
theorem readAll (call : Call limit pending events outcome left) (more : Bytes) :
    Frame.readAll limit (pending ++ (events.flatMap ReadEvent.bytes ++ more)) =
      (outcome.toOption.toList ++ (Frame.readAll limit (left ++ more)).1,
        (Frame.readAll limit (left ++ more)).2) := by
  induction call with
  | frame taken => exact Frame.readAll_of_some (Frame.takeFrom_append_of_some taken more)
  | refused _ => rfl
  | ended _ => rfl
  | failed _ _ => rfl
  | data _ _ ih =>
      rw [← ih, List.flatMap_cons, List.append_assoc, List.append_assoc]
      rfl
  | interrupted _ _ ih => exact ih

/-- At a refused length a call reads nothing and changes nothing. -/
theorem of_error (refused : Frame.takeFrom pending limit = .error error)
    (call : Call limit pending events outcome left) :
    events = [] ∧ outcome = .error error ∧ left = pending := by
  cases call with
  | frame taken =>
      rw [refused] at taken
      cases taken
  | refused again =>
      rw [refused] at again
      cases again
      exact ⟨rfl, rfl, rfl⟩
  | ended waits | failed waits _ | data waits _ | interrupted waits _ =>
      rw [refused] at waits
      cases waits

end Call

/-! ## Runs of calls -/

/-- Reads a number of frames, whatever comes of each call. -/
def receiveMany : Nat → FrameInlet → List (Except FrameError Frame) × FrameInlet
  | 0, inlet => ([], inlet)
  | count + 1, inlet =>
      match inlet.receive with
      | (outcome, inlet) =>
          match receiveMany count inlet with
          | (outcomes, inlet) => (outcome :: outcomes, inlet)

/-- One `Call` after the other. -/
inductive Course (limit : Nat) :
    Bytes → List ReadEvent → List (Except FrameError Frame) → Bytes → Prop where
  /-- No call. -/
  | nil (pending : Bytes) : Course limit pending [] [] pending
  /-- A call, and the calls after it. -/
  | cons {pending middle left : Bytes} {events later : List ReadEvent}
      {outcome : Except FrameError Frame} {outcomes : List (Except FrameError Frame)} :
      Call limit pending events outcome middle → Course limit middle later outcomes left →
      Course limit pending (events ++ later) (outcome :: outcomes) left

/-- **Every run is such a run**: `inlet.receiveMany count` makes the reads of a `Course` and has its
outcomes. -/
theorem receiveMany_course (count : Nat) (inlet : FrameInlet) :
    ∃ events outcomes next, inlet.receiveMany count = (outcomes, next) ∧
      Source.Gives chunkSize inlet.source events next.source ∧
      Course inlet.limit inlet.buffer events outcomes next.buffer ∧ next.limit = inlet.limit := by
  induction count generalizing inlet with
  | zero => exact ⟨[], [], inlet, rfl, .nil _, .nil _, rfl⟩
  | succ count ih =>
      obtain ⟨events, outcome, middle, run, gives, call, limit⟩ := inlet.receive_call
      obtain ⟨later, outcomes, next, runs, rest, course, same⟩ := ih middle
      rw [limit] at course
      refine ⟨events ++ later, outcome :: outcomes, next, ?_, gives.append rest, .cons call course,
        same.trans limit⟩
      rw [receiveMany, run]
      simp only [runs]

/-- The frames among some outcomes. -/
def framesOf (outcomes : List (Except FrameError Frame)) : List Frame :=
  outcomes.flatMap fun outcome => outcome.toOption.toList

/-- The errors among some outcomes. -/
def errorsOf (outcomes : List (Except FrameError Frame)) : List FrameError :=
  outcomes.flatMap fun
    | .ok _ => []
    | .error error => [error]

/-- The frame of an outcome comes before those of the outcomes after it, `outcome.toOption.toList ++
framesOf outcomes`. -/
theorem framesOf_cons (outcome : Except FrameError Frame)
    (outcomes : List (Except FrameError Frame)) :
    framesOf (outcome :: outcomes) = outcome.toOption.toList ++ framesOf outcomes :=
  rfl

/-- A frame is not among the errors. -/
@[simp] theorem errorsOf_ok_cons (frame : Frame) (outcomes : List (Except FrameError Frame)) :
    errorsOf (.ok frame :: outcomes) = errorsOf outcomes :=
  rfl

/-- An error is among the errors. -/
@[simp] theorem errorsOf_error_cons (error : FrameError)
    (outcomes : List (Except FrameError Frame)) :
    errorsOf (.error error :: outcomes) = error :: errorsOf outcomes :=
  rfl

/-- What the end of the input means with these bytes left of a frame: `closed` with none, and else
`truncated` with the size that they tell and how many they are. -/
def cutShort : Bytes → FrameError
  | [] => .closed
  | [_] => .truncated 2 1
  | high :: low :: rest => .truncated (2 + ofBigEndian [high, low]) (2 + rest.length)

/-- What the reads of a run make it report by themselves, by the bytes delivered before them: a
failing read is reported as it is unless it was only interrupted, and an end of the input as the end
of the stream or within a frame, by what the frames before it leave of the bytes delivered. -/
def failures (limit : Nat) (delivered : Bytes) : List ReadEvent → List FrameError
  | [] => []
  | .data [] :: events =>
      cutShort (Frame.readAll limit delivered).2 :: failures limit delivered events
  | .data (byte :: bytes) :: events => failures limit (delivered ++ byte :: bytes) events
  | .fault fault :: events =>
      if fault = .interrupted then failures limit delivered events
      else .transport fault :: failures limit delivered events

/-- What the end of the input means is read off the bytes pending: `endError pending = cutShort
pending`. -/
theorem endError_eq_cutShort (pending : Bytes) : endError pending = cutShort pending := by
  match pending with
  | [] => rfl
  | [_] => rfl
  | high :: low :: rest =>
      rw [endError, if_neg (by simp), cutShort, Nat.add_comm 2 rest.length]
      rfl

/-- Reads after others, and the bytes delivered by these. -/
theorem failures_append (limit : Nat) (delivered : Bytes) (events later : List ReadEvent) :
    failures limit delivered (events ++ later) =
      failures limit delivered events ++
        failures limit (delivered ++ events.flatMap ReadEvent.bytes) later := by
  fun_induction failures limit delivered events with
  | case1 delivered => simp
  | case2 delivered events ih =>
      rw [List.cons_append, failures, ih]
      rfl
  | case3 delivered byte bytes events ih =>
      rw [List.cons_append, failures, ih, List.append_assoc]
      rfl
  | case4 delivered events ih =>
      rw [List.cons_append, failures, if_pos rfl, ih]
      rfl
  | case5 delivered fault events other ih =>
      rw [List.cons_append, failures, if_neg other, ih]
      rfl

/-- What was delivered and what is pending leave the same of a frame, whatever else arrives. -/
def SameRest (limit : Nat) (delivered pending : Bytes) : Prop :=
  ∀ more, (Frame.readAll limit (delivered ++ more)).2 = (Frame.readAll limit (pending ++ more)).2

variable {limit : Nat} {delivered pending left : Bytes} {events : List ReadEvent}
  {outcome : Except FrameError Frame} {outcomes : List (Except FrameError Frame)}
  {error : FrameError}

/-- Bytes that arrive are delivered and pending: `delivered ++ bytes` and `pending ++ bytes`. -/
theorem SameRest.append (same : SameRest limit delivered pending) (bytes : Bytes) :
    SameRest limit (delivered ++ bytes) (pending ++ bytes) := by
  intro more
  rw [List.append_assoc, List.append_assoc]
  exact same (bytes ++ more)

/-- While a call waits, what is pending is what is left of the bytes delivered. -/
theorem SameRest.eq_pending (same : SameRest limit delivered pending)
    (waits : Frame.takeFrom pending limit = .ok none) :
    (Frame.readAll limit delivered).2 = pending := by
  have now := same []
  rw [List.append_nil, List.append_nil, Frame.readAll_of_none waits] at now
  exact now

/-- A call takes frames off what is pending, and so keeps what is left of one. -/
theorem Call.sameRest (call : Call limit pending events outcome left)
    (same : SameRest limit delivered pending) :
    SameRest limit (delivered ++ events.flatMap ReadEvent.bytes) left := by
  intro more
  rw [List.append_assoc, same, call.readAll more]

/-- **A call reports what its reads make it report**, `failures limit delivered events`, returns a
frame, or refuses a length that is there; of these it does one. -/
theorem Call.outcome_cases (call : Call limit pending events outcome left)
    (same : SameRest limit delivered pending) :
    (∃ frame, outcome = .ok frame ∧ failures limit delivered events = []) ∨
      ∃ error, outcome = .error error ∧ (failures limit delivered events = [error] ∨
        failures limit delivered events = [] ∧ Frame.takeFrom left limit = .error error) := by
  induction call generalizing delivered with
  | @frame pending left frame taken => exact .inl ⟨frame, rfl, rfl⟩
  | refused refused => exact .inr ⟨_, rfl, .inr ⟨rfl, refused⟩⟩
  | @ended pending waits =>
      refine .inr ⟨_, rfl, .inl ?_⟩
      rw [failures, same.eq_pending waits, endError_eq_cutShort, failures]
  | failed waits other =>
      refine .inr ⟨_, rfl, .inl ?_⟩
      rw [failures, if_neg other, failures]
  | data waits _ ih => exact ih (same.append _)
  | interrupted waits _ ih => exact ih same

/-- At a refused length the inlet is stuck. -/
theorem Course.of_error (refused : Frame.takeFrom pending limit = .error error)
    (course : Course limit pending events outcomes left) :
    events = [] ∧ outcomes = List.replicate outcomes.length (.error error) ∧ left = pending := by
  induction course with
  | nil pending => exact ⟨rfl, rfl, rfl⟩
  | cons call _ ih =>
      obtain ⟨rfl, rfl, rfl⟩ := call.of_error refused
      obtain ⟨rfl, same, rfl⟩ := ih refused
      refine ⟨rfl, ?_, rfl⟩
      rw [List.length_cons, List.replicate_succ, ← same]

/-- The frames that a run returns and the bytes still pending, `(framesOf outcomes).flatMap
Frame.toBytes ++ left`, are all that was pending or arrived. -/
theorem Course.bytes (course : Course limit pending events outcomes left) :
    pending ++ events.flatMap ReadEvent.bytes =
      (framesOf outcomes).flatMap Frame.toBytes ++ left := by
  induction course with
  | nil pending => exact List.append_nil _
  | cons call _ ih =>
      rw [List.flatMap_append, ← List.append_assoc, call.bytes, List.append_assoc, ih,
        framesOf_cons, List.flatMap_append, List.append_assoc]

/-- The frames that a run returns are the first in the bytes pending, and what comes after them is
untouched. -/
theorem Course.readAll (course : Course limit pending events outcomes left) (more : Bytes) :
    Frame.readAll limit (pending ++ (events.flatMap ReadEvent.bytes ++ more)) =
      (framesOf outcomes ++ (Frame.readAll limit (left ++ more)).1,
        (Frame.readAll limit (left ++ more)).2) := by
  induction course with
  | nil pending => rfl
  | cons call _ ih =>
      rw [List.flatMap_append, List.append_assoc, call.readAll, ih, framesOf_cons,
        List.append_assoc]

/-- **A run reports what its reads make it report**, `failures limit delivered events`, in their
order, and after that a refused length that is still there. -/
theorem Course.errors (course : Course limit pending events outcomes left)
    (same : SameRest limit delivered pending) :
    ∃ refusals, errorsOf outcomes = failures limit delivered events ++ refusals ∧
      ∀ error ∈ refusals, Frame.takeFrom left limit = .error error := by
  induction course generalizing delivered with
  | nil pending => exact ⟨[], rfl, by simp⟩
  | @cons pending middle left events later outcome outcomes call course ih =>
      obtain ⟨refusals, errors, stuck⟩ := ih (call.sameRest same)
      rw [failures_append]
      obtain ⟨frame, rfl, none⟩ | ⟨error, rfl, one | ⟨none, refused⟩⟩ := call.outcome_cases same
      · refine ⟨refusals, ?_, stuck⟩
        rw [errorsOf_ok_cons, errors, none, List.nil_append]
      · refine ⟨refusals, ?_, stuck⟩
        rw [errorsOf_error_cons, errors, one, List.singleton_append, List.cons_append]
      · obtain ⟨rfl, -, rfl⟩ := course.of_error refused
        refine ⟨error :: refusals, ?_, ?_⟩
        · rw [errorsOf_error_cons, errors, none, failures, List.append_nil, List.nil_append,
            List.nil_append]
        · rintro other (_ | ⟨_, member⟩)
          · exact refused
          · exact stuck other member

/-- An interrupted read is never reported. -/
theorem Call.ne_interrupted (call : Call limit pending events outcome left) :
    outcome ≠ .error (.transport .interrupted) := by
  induction call with
  | frame _ => simp
  | refused refused =>
      rintro ⟨⟩
      cases (Frame.takeFrom_eq_error_iff_read.1 refused).2
  | @ended pending waits =>
      unfold endError
      split <;> simp
  | failed _ other => simpa using other
  | data _ _ ih => exact ih
  | interrupted _ _ ih => exact ih

/-- No call of a run reports an interrupted read. -/
theorem Course.interrupted_not_mem (course : Course limit pending events outcomes left) :
    .error (.transport .interrupted) ∉ outcomes := by
  induction course with
  | nil _ => exact List.not_mem_nil
  | cons call _ ih =>
      rintro (_ | ⟨_, member⟩)
      · exact call.ne_interrupted rfl
      · exact ih member

/-! ## Where reading comes to -/

/-- Nothing more can be returned: a length is refused, or bytes are missing that do not come. -/
def Exhausted (inlet : FrameInlet) : Prop :=
  (∃ error, Frame.takeFrom inlet.buffer inlet.limit = .error error) ∨
    (inlet.source.script = [] ∧ Frame.takeFrom inlet.buffer inlet.limit = .ok none)

/-- A bound on the calls that return or use up something: `inlet.weight + inlet.source.size`. -/
def load (inlet : FrameInlet) : Nat := inlet.weight + inlet.source.size

/-- At a refused length a call says so, and reads nothing. -/
theorem receive_of_error {inlet : FrameInlet}
    (refused : Frame.takeFrom inlet.buffer inlet.limit = .error error) :
    inlet.receive = (.error error, inlet) := by
  rw [receive, refused]

/-- A call that waits reads once: an end of the input is reported by `endError`, bytes are looked at
with those that were pending, and a fault is reported unless the read is made again. -/
theorem receive_of_waits {inlet : FrameInlet} {event : ReadEvent} {source : Source}
    (waits : Frame.takeFrom inlet.buffer inlet.limit = .ok none)
    (found : inlet.source.read chunkSize = (event, source)) :
    inlet.receive =
      match event with
      | .data [] => (.error (endError inlet.buffer), { inlet with source })
      | .data (byte :: bytes) =>
          receive { inlet with source, buffer := inlet.buffer ++ byte :: bytes }
      | .fault fault =>
          if fault = .interrupted then receive { inlet with source }
          else (.error (.transport fault), { inlet with source }) := by
  rw [receive, waits]
  simp only
  split
  · rename_i source' ended
    rw [found] at ended
    obtain ⟨rfl, rfl⟩ := Prod.mk.inj ended
    rfl
  · rename_i byte bytes source' arrived
    rw [found] at arrived
    obtain ⟨rfl, rfl⟩ := Prod.mk.inj arrived
    rfl
  · rename_i fault source' failed
    rw [found] at failed
    obtain ⟨rfl, rfl⟩ := Prod.mk.inj failed
    rfl

/-- At a refused length all calls say so, and read nothing: `List.replicate count (.error
error)`. -/
theorem receiveMany_of_error {inlet : FrameInlet}
    (refused : Frame.takeFrom inlet.buffer inlet.limit = .error error) (count : Nat) :
    inlet.receiveMany count = (List.replicate count (.error error), inlet) := by
  induction count with
  | zero => rfl
  | succ count ih =>
      rw [receiveMany, receive_of_error refused]
      simp only [ih]
      rfl

/-- A length that is there, and refused with all that is still to come, is refused by all calls,
which read nothing. -/
theorem receiveMany_of_read_eq_error {inlet : FrameInlet} {coming : Bytes}
    (long : 2 ≤ inlet.buffer.length)
    (refused : Frame.read (inlet.buffer ++ coming) inlet.limit = .error error)
    (refusal : Frame.Refusal error) (count : Nat) :
    inlet.receiveMany count = (List.replicate count (.error error), inlet) := by
  have later := Frame.takeFrom_eq_error_iff_read.2 ⟨refused, refusal⟩
  exact receiveMany_of_error ((Frame.takeFrom_append_eq_error_iff long).1 later) count

/-- Behind the end of the script a call says what the end of the input means, and keeps what is
pending. -/
theorem receive_of_spent {inlet : FrameInlet} (spent : inlet.source.script = [])
    (waits : Frame.takeFrom inlet.buffer inlet.limit = .ok none) :
    inlet.receive = (.error (endError inlet.buffer),
      { inlet with source := ⟨[], inlet.source.reads + 1⟩ }) := by
  obtain ⟨⟨script, reads⟩, buffer, limit⟩ := inlet
  obtain rfl : script = [] := spent
  exact receive_of_waits waits rfl

/-- When nothing more can be returned, that stays so. -/
theorem Exhausted.receive {inlet : FrameInlet} (exhausted : inlet.Exhausted) :
    inlet.receive.2.Exhausted := by
  rcases exhausted with ⟨error, refused⟩ | ⟨spent, waits⟩
  · rw [receive_of_error refused]
    exact .inl ⟨error, refused⟩
  · rw [receive_of_spent spent waits]
    exact .inr ⟨rfl, waits⟩

/-- A call comes to the end or uses up something. -/
theorem receive_progress (inlet : FrameInlet) :
    inlet.receive.2.Exhausted ∨ inlet.receive.2.load < inlet.load := by
  fun_induction receive inlet with
  | case1 inlet error refused => exact .inl (.inl ⟨error, refused⟩)
  | case2 inlet frame buffer taken =>
      have shorter := congrArg List.length (Frame.eq_of_takeFrom taken)
      rw [List.length_append, Frame.length_toBytes, Frame.wireLength, Frame.lengthWidth] at shorter
      right
      simp only [load, weight]
      omega
  | case3 inlet waits source read =>
      have same := congrArg List.length (Source.pending_read read)
      rw [List.length_append, ReadEvent.bytes, List.length_nil] at same
      rcases Source.spent_or_size_lt_of_read (by decide) read with ⟨-, spent⟩ | less
      · exact .inl (.inr ⟨spent, waits⟩)
      · right
        simp only [load, weight]
        omega
  | case4 inlet waits byte bytes source read ih =>
      have same := congrArg List.length (Source.pending_read read)
      have less := Source.size_read (by decide) (by simp) read
      refine ih.imp_right fun rest => ?_
      simp only [load, weight, ReadEvent.bytes, List.length_append] at rest same ⊢
      omega
  | case5 inlet waits source read ih =>
      have same := congrArg List.length (Source.pending_read read)
      have less := Source.size_read (by decide) (by simp) read
      refine ih.imp_right fun rest => ?_
      simp only [load, weight, ReadEvent.bytes, List.length_append] at rest same ⊢
      omega
  | case6 inlet waits fault source read other =>
      have same := congrArg List.length (Source.pending_read read)
      have less := Source.size_read (by decide) (by simp) read
      right
      simp only [load, weight, ReadEvent.bytes, List.length_append, List.length_nil] at same ⊢
      omega

/-- The calls of a run leave what its first call and the others leave. -/
theorem receiveMany_succ_snd (count : Nat) (inlet : FrameInlet) :
    (inlet.receiveMany (count + 1)).2 = (inlet.receive.2.receiveMany count).2 :=
  rfl

/-- Some calls, `count`, and then some `more`. -/
theorem receiveMany_add {count : Nat} {inlet next : FrameInlet} (more : Nat)
    (run : inlet.receiveMany count = (outcomes, next)) :
    (inlet.receiveMany (count + more)).1 = outcomes ++ (next.receiveMany more).1 := by
  induction count generalizing inlet outcomes with
  | zero =>
      obtain ⟨rfl, rfl⟩ := Prod.mk.inj run
      rw [Nat.zero_add]
      rfl
  | succ count ih =>
      obtain ⟨later, last, rest⟩ :
        ∃ later last, inlet.receive.2.receiveMany count = (later, last) := ⟨_, _, rfl⟩
      have whole : inlet.receiveMany (count + 1) = (inlet.receive.1 :: later, last) := by
        rw [receiveMany]
        simp only [rest]
      rw [run] at whole
      obtain ⟨rfl, rfl⟩ := Prod.mk.inj whole
      rw [Nat.add_right_comm, receiveMany, List.cons_append]
      exact congrArg (inlet.receive.1 :: ·) (ih rest)

/-- As many outcomes as calls. -/
theorem length_receiveMany (count : Nat) (inlet : FrameInlet) :
    (inlet.receiveMany count).1.length = count := by
  induction count generalizing inlet with
  | zero => rfl
  | succ count ih =>
      rw [receiveMany]
      exact congrArg (· + 1) (ih inlet.receive.2)

/-- **Enough calls come to the end**: more of them than `inlet.load`. -/
theorem exhausted_of_load_lt {count : Nat} {inlet : FrameInlet}
    (enough : inlet.Exhausted ∨ inlet.load < count) : (inlet.receiveMany count).2.Exhausted := by
  induction count generalizing inlet with
  | zero => exact enough.resolve_right (Nat.not_lt_zero _)
  | succ count ih =>
      rw [receiveMany_succ_snd]
      refine ih ?_
      rcases enough with exhausted | enough
      · exact .inl exhausted.receive
      · exact inlet.receive_progress.imp_right fun less => by omega

/-- An exhausted inlet has no frame left in `inlet.buffer ++ inlet.source.pending`. -/
theorem Exhausted.readAll_eq {inlet : FrameInlet} (exhausted : inlet.Exhausted) :
    (Frame.readAll inlet.limit (inlet.buffer ++ inlet.source.pending)).1 = [] := by
  rcases exhausted with ⟨error, refused⟩ | ⟨spent, waits⟩
  · rw [Frame.readAll_of_error (Frame.takeFrom_append_of_error refused _)]
  · rw [Source.pending, spent, List.flatMap_nil, List.append_nil, Frame.readAll_of_none waits]

/-- An exhausted inlet has used up its script, or a length is refused with all that is to come. -/
theorem Exhausted.spent_or_read_eq_error {inlet : FrameInlet} (exhausted : inlet.Exhausted) :
    inlet.source.script = [] ∨
      ∃ error, Frame.read (inlet.buffer ++ inlet.source.pending) inlet.limit = .error error ∧
        Frame.Refusal error := by
  rcases exhausted with ⟨error, refused⟩ | ⟨spent, -⟩
  · have later := Frame.takeFrom_append_of_error refused inlet.source.pending
    exact .inr ⟨error, Frame.takeFrom_eq_error_iff_read.1 later⟩
  · exact .inl spent

/-- **What comes of a source.** Let `frames` be the frames in front of all the data of a source, and
`left` what is left of it. However its script cuts the data, fails or ends, any number of calls
makes some reads and returns the first of `frames`, in order, `framesOf outcomes <+: frames`;
between them it reports, once and in order, each of these reads that failed, other than an
interrupted one, and each that found the end of the input, by what the data delivered before leaves
of a frame (`failures`). A refused length is reported when all frames before it have been returned;
with its two bytes delivered every further call reports it and reads nothing. Enough calls return
all of `frames`, and use up the script unless they come to a refused length. -/
theorem receiveMany_outcomes (source : Source) (limit : Nat) :
    ∃ frames left, Frame.readAll limit source.pending = (frames, left) ∧
      ∀ count, ∃ outcomes next events refusals,
        receiveMany count { source, limit } = (outcomes, next) ∧
        source.Gives chunkSize events next.source ∧
        framesOf outcomes <+: frames ∧
        errorsOf outcomes = failures limit [] events ++ refusals ∧
        .error (.transport .interrupted) ∉ outcomes ∧
        (∀ error ∈ refusals, framesOf outcomes = frames ∧
          Frame.read left limit = .error error ∧ Frame.Refusal error) ∧
        (framesOf outcomes = frames →
          (frames.flatMap Frame.toBytes).length + Frame.lengthWidth ≤
            (events.flatMap ReadEvent.bytes).length →
          ∀ error, Frame.read left limit = .error error → Frame.Refusal error →
            ∀ more, next.receiveMany more = (List.replicate more (.error error), next)) ∧
        (source.pending.length + source.size < count →
          framesOf outcomes = frames ∧
            (next.source.script = [] ∨
              ∃ error, Frame.read left limit = .error error ∧ Frame.Refusal error)) := by
  refine ⟨_, _, rfl, fun count => ?_⟩
  obtain ⟨events, outcomes, next, run, gives, course, (same : next.limit = limit)⟩ :=
    receiveMany_course count { source, limit }
  have delivered : events.flatMap ReadEvent.bytes =
      (framesOf outcomes).flatMap Frame.toBytes ++ next.buffer := course.bytes
  -- All the data is what was delivered and what is still to be read.
  have all : Frame.readAll limit source.pending =
      (framesOf outcomes ++ (Frame.readAll limit (next.buffer ++ next.source.pending)).1,
        (Frame.readAll limit (next.buffer ++ next.source.pending)).2) := by
    rw [← gives.pending]
    exact course.readAll next.source.pending
  obtain ⟨refusals, errors, stuck⟩ := course.errors fun more => rfl
  refine ⟨outcomes, next, events, refusals, run, gives, ?_, errors, course.interrupted_not_mem, ?_,
    ?_, ?_⟩
  · rw [all]
    exact List.prefix_append _ _
  · intro error member
    have refused := Frame.takeFrom_append_of_error (stuck error member) next.source.pending
    rw [all, Frame.readAll_of_error refused, List.append_nil]
    exact ⟨rfl, Frame.takeFrom_eq_error_iff_read.1 refused⟩
  · intro complete arrived error refused refusal more
    rw [all] at complete refused arrived
    have none : (Frame.readAll limit (next.buffer ++ next.source.pending)).1 = [] :=
      List.self_eq_append_right.1 complete
    rw [Frame.readAll_eq_of_fst_eq_nil none] at refused arrived
    have long : 2 ≤ next.buffer.length := by
      rw [delivered, List.length_append, List.append_nil, Nat.add_le_add_iff_left] at arrived
      exact arrived
    rw [← same] at refused
    exact receiveMany_of_read_eq_error long refused refusal more
  · intro enough
    have exhausted : next.Exhausted := by
      have last : (receiveMany count { source, limit }).2.Exhausted :=
        exhausted_of_load_lt (.inr (by simpa [load, weight] using enough))
      rw [run] at last
      exact last
    have none := exhausted.readAll_eq
    have last := exhausted.spent_or_read_eq_error
    rw [same] at none last
    rw [all, Frame.readAll_eq_of_fst_eq_nil none, List.append_nil]
    exact ⟨rfl, last⟩

/-- A read fails within a length and the input ends within a frame; both are reported, and the frame
is returned when its last byte arrives. -/
example :
    let script : List ReadEvent :=
      [.data [0], .fault .timedOut, .data [2, 0], .fault .interrupted, .data [], .data [18]]
    (receiveMany 4 { source := ⟨script, 0⟩ }).1 =
      [.error (.transport .timedOut), .error (.truncated 4 3), .ok ⟨18, []⟩, .error .closed] := by
  cbv

end FrameInlet

end PeerWire
