import PeerWire.Proofs.Framing

/-! # What an outlet puts on a sink

A sink may take any number of bytes at a time, none at all, and fail any write or flush. Whatever it
does, each frame that an outlet is asked to send adds a front part of its own wire form to the bytes
of the sink: all of it unless a write stopped the sending, and nothing if the frame was refused
(`FrameOutlet.performAll_written`). What was put together for an earlier frame never shows. -/

namespace PeerWire

/-! ## Sinks with any script -/

/-- The fault with which an answer to a write ends the writing; `none` if writing goes on after
it. -/
def WriteEvent.stop? : WriteEvent → Option TransportFault
  | .accept limit => if limit = 0 then some .writeZero else none
  | .fault cause => if cause = .interrupted then none else some cause

namespace Sink

variable {before middle after : Sink} {event : WriteEvent} {fault : TransportFault}

/-- None of the answers used up between two states of a sink ended the writing: `before.writes =
passed ++ after.writes`, with `stop? = none` for all that passed. -/
def WritesOn (before after : Sink) : Prop :=
  ∃ passed, before.writes = passed ++ after.writes ∧ ∀ event ∈ passed, event.stop? = none

/-- The last of the answers used up between two states of a sink ended the writing: `before.writes =
passed ++ event :: after.writes` with `event.stop? = some fault`. -/
def StopsWith (fault : TransportFault) (before after : Sink) : Prop :=
  ∃ passed event, before.writes = passed ++ event :: after.writes ∧
    (∀ event ∈ passed, event.stop? = none) ∧ event.stop? = some fault

/-- An answer after which writing goes on may come first. -/
theorem WritesOn.cons (later : middle.WritesOn after)
    (first : before.writes = event :: middle.writes) (goes : event.stop? = none) :
    before.WritesOn after := by
  obtain ⟨passed, same, others⟩ := later
  refine ⟨event :: passed, by rw [first, same, List.cons_append], ?_⟩
  rintro other (_ | ⟨_, member⟩)
  · exact goes
  · exact others other member

/-- The same before a last answer that ends it. -/
theorem StopsWith.cons (later : StopsWith fault middle after)
    (first : before.writes = event :: middle.writes) (goes : event.stop? = none) :
    StopsWith fault before after := by
  obtain ⟨passed, last, same, others, stops⟩ := later
  refine ⟨event :: passed, last, by rw [first, same, List.cons_append], ?_, stops⟩
  rintro other (_ | ⟨_, member⟩)
  · exact goes
  · exact others other member

/-- Some `bytes` are on the sink, and no flush was made. -/
structure Took (before : Sink) (bytes : Bytes) (after : Sink) : Prop where
  /-- What the sink holds. -/
  written : after.written = before.written ++ bytes
  /-- No answer to a flush was used up. -/
  flushes : after.flushes = before.flushes
  /-- No flush was called. -/
  flushCalls : after.flushCalls = before.flushCalls

/-- More bytes after some: `bytes ++ more`. -/
theorem Took.trans {bytes more : Bytes} (first : before.Took bytes middle)
    (second : middle.Took more after) : before.Took (bytes ++ more) after where
  written := by rw [second.written, first.written, List.append_assoc]
  flushes := second.flushes.trans first.flushes
  flushCalls := second.flushCalls.trans first.flushCalls

/-- **All bytes are written, or a front part of them that lacks an end**, `bytes = part ++ missing`,
and then the last answer says why. -/
theorem writeAll_cases (sink : Sink) (bytes : Bytes) :
    (∃ next, sink.writeAll bytes = (.ok (), next) ∧ sink.Took bytes next ∧ sink.WritesOn next) ∨
      ∃ fault part missing next, sink.writeAll bytes = (.error fault, next) ∧
        bytes = part ++ missing ∧ missing ≠ [] ∧ sink.Took part next ∧
          StopsWith fault sink next := by
  fun_induction writeAll sink bytes with
  | case1 sink =>
      exact .inl ⟨sink, rfl, ⟨(List.append_nil _).symm, rfl, rfl⟩, [], rfl, by simp⟩
  | case2 sink byte more script =>
      exact .inl ⟨_, rfl, ⟨rfl, rfl, rfl⟩, [], rfl, by simp⟩
  | case3 sink byte more writes script after =>
      refine .inr ⟨.writeZero, [], byte :: more, after, rfl, rfl, by simp, ⟨?_, rfl, rfl⟩, ?_⟩
      · simp [after]
      · exact ⟨[], .accept 0, script, by simp, rfl⟩
  | case4 sink byte more limit writes script after positive ih =>
      have goes : (WriteEvent.accept limit).stop? = none := if_neg positive
      have took : sink.Took ((byte :: more).take limit) after := ⟨rfl, rfl, rfl⟩
      have whole := List.take_append_drop limit (byte :: more)
      rcases ih with ⟨next, run, rest, on⟩ |
        ⟨fault, part, missing, next, run, cut, lacks, rest, stops⟩
      · refine .inl ⟨next, run, ?_, on.cons script goes⟩
        rw [← whole]
        exact took.trans rest
      · refine .inr ⟨fault, (byte :: more).take limit ++ part, missing, next, run, ?_, lacks,
          took.trans rest, stops.cons script goes⟩
        rw [List.append_assoc, ← cut, whole]
  | case5 sink byte more writes after script ih =>
      have took : sink.Took [] after := ⟨(List.append_nil _).symm, rfl, rfl⟩
      rcases ih with ⟨next, run, rest, on⟩ |
        ⟨fault, part, missing, next, run, cut, lacks, rest, stops⟩
      · exact .inl ⟨next, run, took.trans rest, on.cons script rfl⟩
      · exact .inr ⟨fault, part, missing, next, run, cut, lacks, took.trans rest,
          stops.cons script rfl⟩
  | case6 sink byte more fault writes script after other =>
      have stops : (WriteEvent.fault fault).stop? = some fault := if_neg other
      refine .inr ⟨fault, [], byte :: more, after, rfl, rfl, by simp, ?_, ?_⟩
      · exact ⟨(List.append_nil _).symm, rfl, rfl⟩
      · exact ⟨[], _, script, by simp, stops⟩

/-- A flush writes nothing. It fails with the fault that the script `sink.flushes` says first, if it
says one. -/
theorem flush_cases (sink : Sink) :
    (∃ next, sink.flush = (.ok (), next) ∧ next.written = sink.written ∧
      next.writes = sink.writes ∧ ∀ fault, some fault ∉ sink.flushes.head?) ∨
    ∃ fault next, sink.flush = (.error fault, next) ∧ next.written = sink.written ∧
      next.writes = sink.writes ∧ sink.flushes = some fault :: next.flushes := by
  unfold flush
  split
  · rename_i fault flushes script
    exact .inr ⟨fault, _, rfl, rfl, rfl, script⟩
  · rename_i flushes script
    exact .inl ⟨_, rfl, rfl, rfl, by simp [script]⟩
  · rename_i script
    exact .inl ⟨_, rfl, rfl, rfl, by simp [script]⟩

end Sink

namespace FrameOutlet

/-! ## One frame -/

/-- How a failure of the sink is to be reported: by `closed` if it took nothing, and anything else
is passed on as `transport fault`. -/
def Reports (fault : TransportFault) (error : FrameError) : Prop :=
  (fault = .writeZero ∧ error = .closed) ∨ (fault ≠ .writeZero ∧ error = .transport fault)

/-- Failures are reported so by `sinkError`. -/
theorem reports_sinkError (fault : TransportFault) : Reports fault (sinkError fault) := by
  unfold sinkError
  split
  · rename_i zero
    exact .inl ⟨zero, rfl⟩
  · rename_i other
    exact .inr ⟨other, rfl⟩

variable {outlet : FrameOutlet} {frame : Frame}

/-- What becomes of a frame that fits: it is written and flushed, or a write stops within it, or the
flush after it fails. -/
theorem send_cases (fits : frame.Fits outlet.limit) :
    (∃ next, outlet.send frame = (.ok (), next) ∧
      next.sink.written = outlet.sink.written ++ frame.toBytes ∧ outlet.sink.WritesOn next.sink ∧
        ∀ fault, some fault ∉ outlet.sink.flushes.head?) ∨
    (∃ fault error next, outlet.send frame = (.error error, next) ∧ Reports fault error ∧
      next.sink.written = outlet.sink.written ++ frame.toBytes ∧ outlet.sink.WritesOn next.sink ∧
        outlet.sink.flushes = some fault :: next.sink.flushes) ∨
    ∃ fault error part missing next, outlet.send frame = (.error error, next) ∧
      Reports fault error ∧ frame.toBytes = part ++ missing ∧ missing ≠ [] ∧
        outlet.sink.Took part next.sink ∧ Sink.StopsWith fault outlet.sink next.sink := by
  rw [send_of_fits fits]
  rcases outlet.sink.writeAll_cases frame.toBytes with ⟨middle, wrote, took, on⟩ |
    ⟨fault, part, missing, sink, wrote, whole, lacks, took, stops⟩
  · rw [wrote]
    -- The frame is on the sink, and only the flush is left.
    rcases middle.flush_cases with ⟨last, flushed, same, writes, answer⟩ |
      ⟨fault, last, flushed, same, writes, answer⟩
    · refine .inl ⟨{ outlet with sink := last, assembly := frame.toBytes }, ?_, ?_, ?_, ?_⟩
      · simp only [flush, flushed]
      · rw [← took.written, ← same]
      · rw [Sink.WritesOn, writes]
        exact on
      · rw [← took.flushes]
        exact answer
    · refine .inr (.inl ⟨fault, sinkError fault,
        { outlet with sink := last, assembly := frame.toBytes }, ?_, reports_sinkError fault, ?_,
        ?_, ?_⟩)
      · simp only [flush, flushed]
      · rw [← took.written, ← same]
      · rw [Sink.WritesOn, writes]
        exact on
      · rw [← took.flushes]
        exact answer
  · rw [wrote]
    exact .inr (.inr ⟨fault, _, part, missing, _, rfl, reports_sinkError fault, whole, lacks, took,
      stops⟩)

/-! ## Runs of an outlet -/

/-- What can be asked of an outlet. -/
inductive Request where
  /-- To send a frame. -/
  | send (frame : Frame)
  /-- To flush. -/
  | flush
  /-- To keep another limit from now on. -/
  | setLimit (limit : Nat)

/-- Does what is asked. -/
def perform (outlet : FrameOutlet) : Request → Except FrameError Unit × FrameOutlet
  | .send frame => outlet.send frame
  | .flush => outlet.flush
  | .setLimit limit => (.ok (), outlet.withLimit limit)

/-- A request, what was answered, and the outlet before and after it. -/
structure Step where
  /-- The outlet before. -/
  before : FrameOutlet
  /-- What was asked. -/
  request : Request
  /-- What was answered. -/
  outcome : Except FrameError Unit
  /-- The outlet after. -/
  after : FrameOutlet

/-- Does what is asked one after the other, whatever comes of it, and keeps a record. -/
def performAll (outlet : FrameOutlet) : List Request → List Step × FrameOutlet
  | [] => ([], outlet)
  | request :: requests =>
      match outlet.perform request with
      | (outcome, next) =>
          match performAll next requests with
          | (steps, last) => (⟨outlet, request, outcome, next⟩ :: steps, last)

/-- What a step adds to the bytes of the sink, and what its answer says about it. -/
inductive Step.Adds : Step → Bytes → Prop where
  /-- A frame that is refused adds nothing: the sink is not even called. -/
  | refused {before after : FrameOutlet} {frame : Frame} {size most : Nat} :
      ¬frame.Fits before.limit → after.sink = before.sink →
      Adds ⟨before, .send frame, .error (.oversize size most), after⟩ []
  /-- A write that stops leaves a front part of the frame that lacks an end; no flush is made. -/
  | cut {before after : FrameOutlet} {frame : Frame} {part missing : Bytes}
      {fault : TransportFault} {error : FrameError} :
      frame.Fits before.limit → Sink.StopsWith fault before.sink after.sink →
      Reports fault error → frame.toBytes = part ++ missing → missing ≠ [] →
      after.sink.flushCalls = before.sink.flushCalls →
      Adds ⟨before, .send frame, .error error, after⟩ part
  /-- A frame whose flush fails is written whole. -/
  | unflushed {before after : FrameOutlet} {frame : Frame} {fault : TransportFault}
      {error : FrameError} :
      frame.Fits before.limit → before.sink.WritesOn after.sink →
      before.sink.flushes = some fault :: after.sink.flushes → Reports fault error →
      Adds ⟨before, .send frame, .error error, after⟩ frame.toBytes
  /-- A frame that is sent is written whole. -/
  | sent {before after : FrameOutlet} {frame : Frame} :
      frame.Fits before.limit → before.sink.WritesOn after.sink →
      (∀ fault, some fault ∉ before.sink.flushes.head?) →
      Adds ⟨before, .send frame, .ok (), after⟩ frame.toBytes
  /-- A flush that fails adds nothing. -/
  | flushFailed {before after : FrameOutlet} {fault : TransportFault} {error : FrameError} :
      before.sink.flushes = some fault :: after.sink.flushes → Reports fault error →
      Adds ⟨before, .flush, .error error, after⟩ []
  /-- A flush adds nothing. -/
  | flushed {before after : FrameOutlet} :
      (∀ fault, some fault ∉ before.sink.flushes.head?) →
      Adds ⟨before, .flush, .ok (), after⟩ []
  /-- Another limit adds nothing, and holds from then on. -/
  | setLimit {before after : FrameOutlet} {limit : Nat} :
      after.limit = limit → after.sink = before.sink →
      Adds ⟨before, .setLimit limit, .ok (), after⟩ []

/-- **Every request adds what its answer says**, and nothing else: `next.sink.written =
outlet.sink.written ++ part`. -/
theorem perform_adds (outlet : FrameOutlet) (request : Request) :
    ∃ outcome next part, outlet.perform request = (outcome, next) ∧
      Step.Adds ⟨outlet, request, outcome, next⟩ part ∧
        next.sink.written = outlet.sink.written ++ part := by
  cases request with
  | send frame =>
      by_cases fits : frame.Fits outlet.limit
      · rcases send_cases fits with ⟨next, run, written, on, answer⟩ |
          ⟨fault, error, next, run, report, written, on, answer⟩ |
          ⟨fault, error, part, missing, next, run, report, whole, lacks, took, stops⟩
        · exact ⟨_, next, _, run, .sent fits on answer, written⟩
        · exact ⟨_, next, _, run, .unflushed fits on answer report, written⟩
        · exact ⟨_, next, part, run, .cut fits stops report whole lacks took.flushCalls,
            took.written⟩
      · obtain ⟨size, most, assembly, refused⟩ := send_of_not_fits fits
        exact ⟨_, _, [], refused, .refused fits rfl, (List.append_nil _).symm⟩
  | flush =>
      rcases outlet.sink.flush_cases with ⟨last, flushed, same, -, answer⟩ |
        ⟨fault, last, flushed, same, -, answer⟩
      · refine ⟨.ok (), { outlet with sink := last }, [], ?_, .flushed answer, ?_⟩
        · simp only [perform, flush, flushed]
        · rw [List.append_nil, ← same]
      · refine ⟨.error (sinkError fault), { outlet with sink := last }, [], ?_,
          .flushFailed answer (reports_sinkError fault), ?_⟩
        · simp only [perform, flush, flushed]
        · rw [List.append_nil, ← same]
  | setLimit limit =>
      exact ⟨.ok (), outlet.withLimit limit, [], rfl, .setLimit rfl rfl, (List.append_nil _).symm⟩

/-- **The sink holds what the steps add, in their order**, `outlet.sink.written ++ parts.flatten`. A
frame that was sent is there whole, a frame that was refused not at all and without a call to the
sink, a frame whose writing stopped with a front part that lacks an end, and a frame of which only
the flush failed is there whole (`Step.Adds`). A sink that takes nothing is reported as closed, and
every other fault as it is. Whatever the buffer of the outlet still holds, nothing that was put
together for one frame is written for another. -/
theorem performAll_written (outlet : FrameOutlet) (requests : List Request) :
    ∃ steps last parts, outlet.performAll requests = (steps, last) ∧
      steps.map Step.request = requests ∧
      List.Forall₂ (fun step part => step.Adds part ∧
        step.after.sink.written = step.before.sink.written ++ part) steps parts ∧
      last.sink.written = outlet.sink.written ++ parts.flatten := by
  induction requests generalizing outlet with
  | nil => exact ⟨[], outlet, [], rfl, rfl, .nil, (List.append_nil _).symm⟩
  | cons request requests ih =>
      obtain ⟨outcome, next, part, run, adds, written⟩ := outlet.perform_adds request
      obtain ⟨steps, last, parts, later, order, each, total⟩ := ih next
      refine ⟨⟨outlet, request, outcome, next⟩ :: steps, last, part :: parts, ?_, ?_,
        .cons ⟨adds, written⟩ each, ?_⟩
      · rw [performAll, run]
        simp only [later]
      · rw [List.map_cons, order]
      · rw [total, written, List.append_assoc, List.flatten_cons]

end FrameOutlet

end PeerWire
