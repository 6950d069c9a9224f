import PeerWire.Proofs.Chunking
import PeerWire.Proofs.WireForms
import PeerWire.Proofs.Writing

/-! # Frames that a write tears

A write that stops within a frame leaves a front part of it on the sink, and an outlet has no memory
of that: the next frame is written behind the part, and may well be reported as sent. Up to the
first frame that is torn, a peer reads the frames that were sent, and between them at most frames of
which only the flush failed. From there on it reads the part and whatever was written later as one
string of bytes (`FrameOutlet.delivers_until_torn`). A part of a header can thus swallow the header
of a frame that was sent (`FrameOutlet.torn_header_swallows_sent`). -/

namespace PeerWire

namespace FrameInlet

/-- Frames that fit are read one after the other, `frames.map .ok`, and then what a file with the
bytes after them gives. -/
theorem receiveMany_of_front {source : Source} {frames : List Frame} {rest : Bytes}
    (flowing : source.Flowing) (fits : ∀ frame ∈ frames, frame.Fits Frame.maxSize)
    (bytes : source.pending = frames.flatMap Frame.toBytes ++ rest) (nonempty : rest ≠ [])
    (count : Nat) :
    (receiveMany (frames.length + count) { source }).1 =
      frames.map .ok ++ (receiveMany count { source := .ofBytes rest }).1 := by
  obtain ⟨next, first, limit, left, flowing'⟩ :
      ∃ next, receiveMany frames.length { source } = (frames.map .ok, next) ∧
        next.limit = Frame.maxSize ∧ next.buffer ++ next.source.pending = rest ∧
        next.source.Flowing :=
    receiveMany_of_frames flowing fits bytes
  -- What was read ahead does not show: only the bytes to come do.
  have others : (next.receiveMany count).1 = (receiveMany count { source := .ofBytes rest }).1 := by
    refine receiveMany_congr flowing' ?_ ?_ ?_ count
    · exact Source.flowing_ofBytes nonempty
    · exact limit
    · rw [left, Source.pending_ofBytes]
      rfl
  rw [receiveMany_add count first, others]

/-- A front part of a frame that fits, `part` of `part ++ missing`, and nothing after it, is
reported as cut short. -/
theorem receiveMany_of_part {frame : Frame} {part missing : Bytes}
    (fits : frame.Fits Frame.maxSize) (whole : frame.toBytes = part ++ missing)
    (nonempty : part ≠ []) (lacks : missing ≠ []) (count : Nat) :
    (receiveMany count { source := .ofBytes part }).1 =
      List.replicate count (.error (.truncated
        (if part.length < 2 then 2 else frame.wireLength) part.length)) := by
  have cut : part.length < frame.wireLength := by
    have missed := List.length_pos_iff.2 lacks
    rw [← Frame.length_toBytes, whole, List.length_append]
    omega
  have front : frame.toBytes.take part.length = part := by
    rw [whole, List.take_left]
  have reported := Frame.read_take_toBytes fits cut
  rw [front] at reported
  have ends : Frame.Ending Frame.maxSize (Source.ofBytes part).pending
      (some (.truncated (if part.length < 2 then 2 else frame.wireLength) part.length)) := by
    rw [Source.pending_ofBytes]
    exact .broken nonempty reported
  have flowing : ({ source := .ofBytes part } : FrameInlet).source.Flowing :=
    Source.flowing_ofBytes nonempty
  exact receiveMany_of_ending flowing ends count

end FrameInlet

namespace FrameOutlet

/-! ## What a step leaves on the sink -/

namespace Step

/-- The bytes that a step adds to the sink: `written` after it, without what was there before. -/
def added (step : Step) : Bytes :=
  step.after.sink.written.drop step.before.sink.written.length

/-- The frame that a step puts on the sink whole, if there is one. -/
def whole? (step : Step) : Option Frame :=
  match step.request with
  | .send frame => if step.added = frame.toBytes then some frame else none
  | .flush => none
  | .setLimit _ => none

/-- A step that leaves bytes on the sink which are not those of a whole frame: `added ≠ []` without
a frame in `whole?`. -/
def Torn (step : Step) : Prop :=
  step.whole? = none ∧ step.added ≠ []

variable {step : Step} {steps : List Step} {frame : Frame}

/-- A frame is on the sink whole when it was to be sent and `step.added = frame.toBytes`. -/
theorem whole?_eq_some_iff :
    step.whole? = some frame ↔ step.request = .send frame ∧ step.added = frame.toBytes := by
  unfold whole?
  split
  · rename_i other asked
    rw [asked, Request.send.injEq]
    split
    · rename_i same
      rw [Option.some.injEq]
      constructor
      · rintro rfl
        exact ⟨rfl, same⟩
      · exact fun both => both.1
    · rename_i different
      constructor
      · rintro ⟨⟩
      · rintro ⟨rfl, same⟩
        exact absurd same different
  · rename_i asked
    simp [asked]
  · rename_i limit asked
    simp [asked]

/-- What a step adds that is not torn is a whole frame, `step.whole?`, or nothing. -/
theorem added_of_not_torn (untorn : ¬step.Torn) :
    step.added = step.whole?.toList.flatMap Frame.toBytes := by
  cases found : step.whole? with
  | none =>
      by_contra added
      exact untorn ⟨found, added⟩
  | some frame =>
      rw [(whole?_eq_some_iff.1 found).2]
      exact (List.append_nil _).symm

/-- What steps add that are not torn is their frames, `steps.filterMap whole?`. -/
theorem flatMap_added_of_not_torn (untorn : ∀ step ∈ steps, ¬step.Torn) :
    steps.flatMap added = (steps.filterMap whole?).flatMap Frame.toBytes := by
  induction steps with
  | nil => rfl
  | cons step steps ih =>
      rw [List.flatMap_cons, added_of_not_torn (untorn step List.mem_cons_self),
        ih fun other member => untorn other (List.mem_cons_of_mem _ member)]
      cases found : step.whole? with
      | none => simp [found]
      | some frame => simp [found]

/-- **A step adds nothing, or a whole frame, or is torn.** It adds nothing only if no frame was
sent; a frame that is there whole was sent, or its flush failed; and what is torn is a front part of
a frame that was not sent, `frame.toBytes = step.added ++ missing`. -/
theorem Adds.cases (adds : step.Adds step.added) :
    (step.added = [] ∧ step.whole? = none ∧
      ∀ frame, step.request = .send frame → step.outcome ≠ .ok ()) ∨
    (∃ frame, step.whole? = some frame ∧ frame.Fits Frame.maxSize ∧
      (step.outcome = .ok () ∨
        ∃ fault, step.before.sink.flushes = some fault :: step.after.sink.flushes)) ∨
    ∃ frame error missing, step.whole? = none ∧ step.request = .send frame ∧
      step.outcome = .error error ∧ frame.Fits Frame.maxSize ∧
      frame.toBytes = step.added ++ missing ∧ missing ≠ [] := by
  generalize added : step.added = part at adds ⊢
  -- Where nothing of a frame is missing, the frame is whole; a wire form is never empty.
  have whole {frame : Frame} (asked : step.request = .send frame) (same : part = frame.toBytes) :
      step.whole? = some frame :=
    whole?_eq_some_iff.2 ⟨asked, added.trans same⟩
  have nothing (other : ∀ frame, step.request = .send frame → part ≠ frame.toBytes) :
      step.whole? = none := by
    rw [Option.eq_none_iff_forall_ne_some]
    intro frame found
    obtain ⟨asked, same⟩ := whole?_eq_some_iff.1 found
    exact other frame asked (added.symm.trans same)
  cases adds with
  | refused _ _ =>
      refine .inl ⟨rfl, nothing fun frame _ => frame.toBytes_ne_nil.symm, ?_⟩
      rintro frame - ⟨⟩
  | @cut before after frame part missing fault error fits _ _ same lacks _ =>
      refine .inr (.inr
        ⟨frame, error, missing, nothing ?_, rfl, rfl, ⟨fits.1, fits.1⟩, same, lacks⟩)
      rintro other ⟨⟩ all
      rw [all] at same
      exact lacks (List.self_eq_append_right.1 same)
  | @unflushed before after frame fault error fits _ answer _ =>
      exact .inr (.inl ⟨frame, whole rfl rfl, ⟨fits.1, fits.1⟩, .inr ⟨fault, answer⟩⟩)
  | @sent before after frame fits _ _ =>
      exact .inr (.inl ⟨frame, whole rfl rfl, ⟨fits.1, fits.1⟩, .inl rfl⟩)
  | flushFailed _ _ | flushed _ | setLimit _ _ => exact .inl ⟨rfl, rfl, by simp⟩

/-- A frame that was sent is there whole, `step.whole? = some frame`, and so is otherwise only one
of which the flush failed. -/
theorem Adds.whole?_of_send (adds : step.Adds step.added) (asked : step.request = .send frame) :
    (step.outcome = .ok () → step.whole? = some frame) ∧
    (step.whole? = some frame → step.outcome = .ok () ∨
      ∃ fault, step.before.sink.flushes = some fault :: step.after.sink.flushes) := by
  obtain ⟨-, none, unsent⟩ | ⟨other, found, -, why⟩ |
    ⟨other, error, missing, none, -, failed, -, -, -⟩ := adds.cases
  · simp [none, unsent frame asked]
  · have same := (whole?_eq_some_iff.1 found).1
    rw [asked, Request.send.injEq] at same
    subst same
    exact ⟨fun _ => found, fun _ => why⟩
  · simp [none, failed]

/-- A frame that is there whole fits. -/
theorem Adds.fits (adds : step.Adds step.added) (found : step.whole? = some frame) :
    frame.Fits Frame.maxSize := by
  obtain ⟨-, none, -⟩ | ⟨other, whole, fits, -⟩ | ⟨_, _, _, none, -⟩ := adds.cases
  · simp [none] at found
  · rw [found, Option.some.injEq] at whole
    rw [whole]
    exact fits
  · simp [none] at found

/-- What is torn is a front part of a frame that was not sent: `frame.toBytes = step.added ++
missing`. -/
theorem Adds.of_torn (adds : step.Adds step.added) (torn : step.Torn) :
    ∃ frame error missing, step.request = .send frame ∧ step.outcome = .error error ∧
      frame.Fits Frame.maxSize ∧ frame.toBytes = step.added ++ missing ∧ missing ≠ [] := by
  obtain ⟨none, -, -⟩ | ⟨frame, whole, -, -⟩ | ⟨frame, error, missing, -, front⟩ := adds.cases
  · exact absurd none torn.2
  · simp [torn.1] at whole
  · exact ⟨frame, error, missing, front⟩

end Step

/-- **A run adds what its steps add**: `steps.flatMap Step.added`. -/
theorem performAll_adds (outlet : FrameOutlet) (requests : List Request) :
    ∃ steps last, outlet.performAll requests = (steps, last) ∧
      steps.map Step.request = requests ∧ (∀ step ∈ steps, step.Adds step.added) ∧
      last.sink.written = outlet.sink.written ++ steps.flatMap Step.added := by
  induction requests generalizing outlet with
  | nil => exact ⟨[], outlet, rfl, rfl, by simp, (List.append_nil _).symm⟩
  | cons request requests ih =>
      obtain ⟨outcome, next, part, run, adds, written⟩ := outlet.perform_adds request
      obtain ⟨steps, last, later, order, each, total⟩ := ih next
      have added : Step.added ⟨outlet, request, outcome, next⟩ = part := by
        rw [Step.added, written]
        exact List.drop_left
      refine ⟨⟨outlet, request, outcome, next⟩ :: steps, last, ?_, ?_, ?_, ?_⟩
      · rw [performAll, run]
        simp only [later]
      · rw [List.map_cons, order]
      · rw [List.forall_mem_cons, added]
        exact ⟨adds, each⟩
      · rw [total, written, List.append_assoc, List.flatMap_cons, added]

/-- **A peer reads the frames before the first torn one**, and what else is on the sink as it
stands. Let an outlet do what it is asked, over a sink that takes, fails and flushes in any way. A
frame that was sent is on the sink whole, and so is no other but one of which the flush failed. If
no step is `Torn`, a peer with the largest limit reads exactly these frames, `steps.filterMap
Step.whole?`, in order, and then the end of the stream. Otherwise it reads those before the first
step that is torn, which left a front part of a frame that was not sent; and from there on it reads
this part with the bytes of all later steps behind it, as the one string `torn.added ++ late.flatMap
Step.added`. With no bytes behind it the part is reported as cut short. -/
theorem delivers_until_torn (writes : List WriteEvent) (flushes : List (Option TransportFault))
    (limit : Nat) (requests : List Request) :
    ∃ steps last, performAll { sink := { writes, flushes }, limit } requests = (steps, last) ∧
      steps.map Step.request = requests ∧
      (∀ step ∈ steps, ∀ frame, step.request = .send frame →
        (step.outcome = .ok () → step.whole? = some frame) ∧
        (step.whole? = some frame → step.outcome = .ok () ∨
          ∃ fault, step.before.sink.flushes = some fault :: step.after.sink.flushes)) ∧
      ∀ source : Source, source.Flowing → source.pending = last.sink.written →
        ((∀ step ∈ steps, ¬step.Torn) → ∀ more,
          (FrameInlet.receiveMany ((steps.filterMap Step.whole?).length + more) { source }).1 =
            (steps.filterMap Step.whole?).map .ok ++ List.replicate more (.error .closed)) ∧
        ∀ early torn late, steps = early ++ torn :: late → (∀ step ∈ early, ¬step.Torn) →
          torn.Torn →
            ∃ frame error missing, torn.request = .send frame ∧ torn.outcome = .error error ∧
              frame.toBytes = torn.added ++ missing ∧ missing ≠ [] ∧
              ∀ count,
                (FrameInlet.receiveMany ((early.filterMap Step.whole?).length + count)
                  { source }).1 =
                (early.filterMap Step.whole?).map .ok ++
                  (FrameInlet.receiveMany count
                    { source := .ofBytes (torn.added ++ late.flatMap Step.added) }).1 ∧
                (late.flatMap Step.added = [] →
                  (FrameInlet.receiveMany count
                    { source := .ofBytes (torn.added ++ late.flatMap Step.added) }).1 =
                  List.replicate count (.error (.truncated
                    (if torn.added.length < 2 then 2 else frame.wireLength)
                    torn.added.length))) := by
  obtain ⟨steps, last, run, order, adds, total⟩ :=
    performAll_adds { sink := { writes, flushes }, limit } requests
  have written : last.sink.written = steps.flatMap Step.added := total
  have fits {part : List Step} (sub : part ⊆ steps) :
      ∀ frame ∈ part.filterMap Step.whole?, frame.Fits Frame.maxSize := by
    intro frame member
    obtain ⟨step, among, found⟩ := List.mem_filterMap.1 member
    exact (adds step (sub among)).fits found
  refine ⟨steps, last, run, order, ?_, fun source flowing pending => ⟨?_, ?_⟩⟩
  · intro step member frame asked
    exact (adds step member).whole?_of_send asked
  · intro untorn more
    have bytes : source.pending = (steps.filterMap Step.whole?).flatMap Frame.toBytes := by
      rw [pending, written, Step.flatMap_added_of_not_torn untorn]
    have all := Frame.readAll_flatMap_toBytes (fits fun _ => id)
    rw [← bytes] at all
    exact FrameInlet.receiveMany_of_readAll { source } flowing all .clean more
  · rintro early torn late rfl untorn tears
    obtain ⟨frame, error, missing, asked, failed, small, part, lacks⟩ :=
      (adds torn (by simp)).of_torn tears
    have bytes : source.pending = (early.filterMap Step.whole?).flatMap Frame.toBytes ++
        (torn.added ++ late.flatMap Step.added) := by
      rw [pending, written, List.flatMap_append, Step.flatMap_added_of_not_torn untorn,
        List.flatMap_cons]
    have some : torn.added ++ late.flatMap Step.added ≠ [] := by simp [tears.2]
    refine ⟨frame, error, missing, asked, failed, part, lacks, fun count => ⟨?_, ?_⟩⟩
    · exact FrameInlet.receiveMany_of_front flowing (fits (List.subset_append_left _ _)) bytes some
        count
    · intro last
      rw [last, List.append_nil] at some ⊢
      exact FrameInlet.receiveMany_of_part small part some lacks count

/-- A sink takes three bytes of a ping and then nothing, and the frame after it is reported as sent.
The peer takes the part for the header of a frame without content, and the rest for one that is cut
short: the frame that was sent is never read. -/
theorem torn_header_swallows_sent :
    let outlet : FrameOutlet := { sink := { writes := [.accept 3, .accept 0] } }
    let run := outlet.performAll [.send ⟨18, []⟩, .send ⟨19, [0x6f, 0x6b]⟩]
    run.1.map Step.outcome = [.error .closed, .ok ()] ∧
      run.2.sink.written = [0, 2, 0, 0, 4, 0, 19, 0x6f, 0x6b] ∧
      ∀ more, (FrameInlet.receiveMany (1 + more) { source := .ofBytes run.2.sink.written }).1 =
        [.ok ⟨0, []⟩] ++ List.replicate more (.error (.truncated 1026 5)) := by
  intro outlet run
  have outcomes : run.1.map Step.outcome = [.error .closed, .ok ()] := by
    dsimp only [run, outlet]
    cbv
  have added : run.1.flatMap Step.added = [0, 2, 0, 0, 4, 0, 19, 0x6f, 0x6b] := by
    dsimp only [run, outlet]
    cbv
  have written : run.2.sink.written = [0, 2, 0, 0, 4, 0, 19, 0x6f, 0x6b] := by
    obtain ⟨steps, last, ran, -, -, total⟩ :=
      outlet.performAll_adds [.send ⟨18, []⟩, .send ⟨19, [0x6f, 0x6b]⟩]
    rw [← added, show run = (steps, last) from ran]
    exact total
  have all : Frame.readAll Frame.maxSize (Source.ofBytes run.2.sink.written).pending =
      ([⟨0, []⟩], [4, 0, 19, 0x6f, 0x6b]) := by
    rw [Source.pending_ofBytes, written]
    cbv
  have cut : Frame.read [4, 0, 19, 0x6f, 0x6b] Frame.maxSize = .error (.truncated 1026 5) := by
    decide
  have flowing : (Source.ofBytes run.2.sink.written).Flowing :=
    Source.flowing_ofBytes (by simp [written])
  refine ⟨outcomes, written, fun more => ?_⟩
  exact FrameInlet.receiveMany_of_readAll { source := .ofBytes run.2.sink.written } flowing all
    (.broken (by simp) cut) more

end FrameOutlet

end PeerWire
