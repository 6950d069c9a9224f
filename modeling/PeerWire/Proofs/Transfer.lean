import PeerWire.Frame.Inlet
import PeerWire.Proofs.Framing

/-! # Frames over a transport

A *willing* sink takes at least one byte of every write, a *flowing* source has no end of input
before its script is used up; both may interrupt calls. Over such a transport a frame that fits is
written whole (`FrameOutlet.send_of_willing`) and comes out of an inlet whole, however the source
cuts its bytes (`FrameInlet.receive_of_frame`). -/

namespace PeerWire

/-! ## Willing sinks -/

namespace Sink

/-- A sink that takes some of every write, or interrupts it, and fails no flush. -/
structure Willing (sink : Sink) : Prop where
  /-- A write takes at least one byte or is interrupted. -/
  writes : ∀ event ∈ sink.writes,
    (∃ limit, event = .accept (limit + 1)) ∨ event = .fault .interrupted
  /-- A flush does not fail. -/
  flushes : ∀ event ∈ sink.flushes, event = none

/-- A sink with no other events than those of a willing one is willing. -/
theorem Willing.of_subset {sink next : Sink} (willing : sink.Willing)
    (writes : next.writes ⊆ sink.writes) (flushes : next.flushes ⊆ sink.flushes) : next.Willing :=
  ⟨fun event member => willing.writes event (writes member),
    fun event member => willing.flushes event (flushes member)⟩

/-- A willing sink takes all bytes in order, `sink.written ++ bytes`, and stays willing. -/
theorem writeAll_of_willing {sink : Sink} (willing : sink.Willing) (bytes : Bytes) :
    ∃ next, sink.writeAll bytes = (.ok (), next) ∧ next.written = sink.written ++ bytes ∧
      next.Willing := by
  fun_induction writeAll sink bytes with
  | case1 sink => exact ⟨sink, rfl, (List.append_nil _).symm, willing⟩
  | case2 sink byte more used =>
      exact ⟨_, rfl, rfl, willing.of_subset (List.Subset.refl _) (List.Subset.refl _)⟩
  | case3 sink byte more writes script =>
      have first := willing.writes (.accept 0) (by rw [script]; exact List.mem_cons_self)
      simp at first
  | case4 sink byte more limit writes script after positive ih =>
      have stays : after.Willing := willing.of_subset
        (by rw [script]; exact List.subset_cons_self _ _) (List.Subset.refl _)
      obtain ⟨next, run, written, last⟩ := ih stays
      refine ⟨next, run, ?_, last⟩
      rw [written, List.append_assoc, List.take_append_drop]
  | case5 sink byte more writes after script ih =>
      exact ih (willing.of_subset (by rw [script]; exact List.subset_cons_self _ _)
        (List.Subset.refl _))
  | case6 sink byte more fault writes script after other =>
      have first := willing.writes (.fault fault) (by rw [script]; exact List.mem_cons_self)
      simp [other] at first

/-- A willing sink flushes, and stays willing. -/
theorem flush_of_willing {sink : Sink} (willing : sink.Willing) :
    ∃ next, sink.flush = (.ok (), next) ∧ next.written = sink.written ∧ next.Willing := by
  unfold flush
  split
  · rename_i fault flushes script
    have first := willing.flushes (some fault) (by rw [script]; exact List.mem_cons_self)
    cases first
  · rename_i flushes script
    exact ⟨_, rfl, rfl, willing.of_subset (List.Subset.refl _)
      (by rw [script]; exact List.subset_cons_self _ _)⟩
  · rename_i script
    exact ⟨_, rfl, rfl, willing.of_subset (List.Subset.refl _) (List.Subset.refl _)⟩

end Sink

/-- A frame that fits is written whole to a willing sink, as `frame.toBytes`. -/
theorem FrameOutlet.send_of_willing {outlet : FrameOutlet} {frame : Frame}
    (willing : outlet.sink.Willing) (fits : frame.Fits outlet.limit) :
    ∃ next, outlet.send frame = (.ok (), next) ∧ next.limit = outlet.limit ∧
      next.sink.written = outlet.sink.written ++ frame.toBytes ∧ next.sink.Willing := by
  obtain ⟨middle, wrote, written, stays⟩ := Sink.writeAll_of_willing willing frame.toBytes
  obtain ⟨last, flushed, same, ends⟩ := Sink.flush_of_willing stays
  refine ⟨{ outlet with sink := last, assembly := frame.toBytes }, ?_, rfl, ?_, ends⟩
  · rw [send_of_fits fits, wrote]
    simp only [flush, flushed]
  · rw [← written, ← same]

/-! ## Flowing sources -/

namespace Source

/-- A source that gives bytes or interrupts, until its script is used up. -/
def Flowing (source : Source) : Prop :=
  ∀ event ∈ source.script,
    (∃ byte bytes, event = .data (byte :: bytes)) ∨ event = .fault .interrupted

/-- All bytes of a file are still to be read: `(ofBytes bytes).pending = bytes`. -/
theorem pending_ofBytes (bytes : Bytes) : (ofBytes bytes).pending = bytes :=
  List.append_nil _

/-- A file that is not empty gives its bytes. -/
theorem flowing_ofBytes {bytes : Bytes} (nonempty : bytes ≠ []) : (ofBytes bytes).Flowing := by
  obtain ⟨byte, more, rfl⟩ := List.exists_cons_of_ne_nil nonempty
  rintro event (_ | ⟨_, ⟨⟩⟩)
  exact .inl ⟨byte, more, rfl⟩

/-- A read from a flowing source leaves a flowing source. It gives no bytes only when there are none
left, and fails only by `interrupted`, to be repeated. -/
theorem Flowing.read {source next : Source} {event : ReadEvent} {limit : Nat}
    (flowing : source.Flowing) (found : source.read limit = (event, next)) :
    next.Flowing ∧ (event = .data [] → 0 < limit → source.pending = []) ∧
      ∀ fault, event = .fault fault → fault = .interrupted := by
  obtain ⟨script, reads⟩ := source
  unfold Source.read at found
  match script with
  | [] =>
      obtain ⟨rfl, rfl⟩ := Prod.mk.inj found
      exact ⟨flowing, fun _ _ => rfl, by simp⟩
  | .fault fault :: script =>
      obtain ⟨rfl, rfl⟩ := Prod.mk.inj found
      refine ⟨fun event member => flowing event (List.mem_cons_of_mem _ member), by simp, ?_⟩
      rintro _ same
      cases same
      simpa using flowing (.fault fault) List.mem_cons_self
  | .data [] :: script =>
      have first := flowing (.data []) List.mem_cons_self
      simp at first
  | .data (byte :: bytes) :: script =>
      simp only at found
      split at found
      · obtain ⟨rfl, rfl⟩ := Prod.mk.inj found
        exact ⟨fun event member => flowing event (List.mem_cons_of_mem _ member), by simp, by simp⟩
      · rename_i more
        -- What is beyond the limit stays in front of the script, and is not empty.
        have more : (byte :: bytes).drop limit ≠ [] := by simpa using more
        obtain ⟨rfl, rfl⟩ := Prod.mk.inj found
        refine ⟨?_, ?_, by simp⟩
        · rintro event (_ | ⟨_, member⟩)
          · obtain ⟨first, others, same⟩ := List.exists_cons_of_ne_nil more
            exact .inl ⟨first, others, congrArg ReadEvent.data same⟩
          · exact flowing event (List.mem_cons_of_mem _ member)
        · intro nothing positive
          have size := congrArg List.length (ReadEvent.data.inj nothing)
          simp at size
          omega

end Source

namespace FrameInlet

/-- Bytes that start with a frame that fits, `frame.toBytes ++ later`, give the frame, and `later`
is left to be read, however the source cuts them. -/
theorem receive_of_frame {inlet : FrameInlet} {frame : Frame} {later : Bytes}
    (flowing : inlet.source.Flowing) (fits : frame.Fits inlet.limit)
    (whole : inlet.buffer ++ inlet.source.pending = frame.toBytes ++ later) :
    ∃ next, inlet.receive = (.ok frame, next) ∧ next.limit = inlet.limit ∧
      next.buffer ++ next.source.pending = later ∧ next.source.Flowing := by
  have front {inlet : FrameInlet} (fits : frame.Fits inlet.limit)
      (whole : inlet.buffer ++ inlet.source.pending = frame.toBytes ++ later) :=
    Frame.takeFrom_of_append whole fits
  fun_induction receive inlet with
  | case1 inlet error refused =>
      rcases front fits whole with ⟨rest, taken, -⟩ | ⟨nothing, -⟩
      · rw [refused] at taken
        cases taken
      · rw [refused] at nothing
        cases nothing
  | case2 inlet other buffer found =>
      rcases front fits whole with ⟨rest, taken, left⟩ | ⟨nothing, -⟩
      · rw [found] at taken
        cases taken
        exact ⟨_, rfl, rfl, left, flowing⟩
      · rw [found] at nothing
        cases nothing
  | case3 inlet missing source event =>
      -- The source has ended, but the frame is not all there: its bytes cannot be all that is left.
      rcases front fits whole with ⟨rest, taken, -⟩ | ⟨-, more⟩
      · rw [missing] at taken
        cases taken
      · exact absurd ((flowing.read event).2.1 rfl (by decide)) more
  | case4 inlet missing byte bytes source event ih =>
      refine ih (flowing.read event).1 fits ?_
      have pending := Source.pending_read event
      rw [List.append_assoc, ← whole, ← pending]
      rfl
  | case5 inlet missing source event ih =>
      refine ih (flowing.read event).1 fits ?_
      have pending := Source.pending_read event
      rw [← whole, ← pending]
      rfl
  | case6 inlet missing fault source event other =>
      exact absurd ((flowing.read event).2.2 fault rfl) other

/-- With nothing left to be read the stream is `closed`, and stays so. -/
theorem receive_of_nothing {inlet : FrameInlet} (flowing : inlet.source.Flowing)
    (nothing : inlet.buffer ++ inlet.source.pending = []) :
    ∃ next, inlet.receive = (.error .closed, next) ∧ next.limit = inlet.limit ∧
      next.buffer ++ next.source.pending = [] ∧ next.source.Flowing := by
  have empty {inlet : FrameInlet} (nothing : inlet.buffer ++ inlet.source.pending = []) :
      inlet.buffer = [] :=
    (List.append_eq_nil_iff.1 nothing).1
  fun_induction receive inlet with
  | case1 inlet error refused =>
      rw [empty nothing] at refused
      cases refused
  | case2 inlet frame buffer found =>
      rw [empty nothing] at found
      cases found
  | case3 inlet missing source event =>
      have closed : endError inlet.buffer = .closed := by
        rw [empty nothing]
        rfl
      refine ⟨{ inlet with source }, by rw [closed], rfl, ?_, (flowing.read event).1⟩
      have pending := Source.pending_read event
      rw [← nothing, ← pending]
      rfl
  | case4 inlet missing byte bytes source event ih =>
      have pending := Source.pending_read event
      rw [(List.append_eq_nil_iff.1 nothing).2] at pending
      cases pending
  | case5 inlet missing source event ih =>
      refine ih (flowing.read event).1 ?_
      have pending := Source.pending_read event
      rw [← nothing, ← pending]
      rfl
  | case6 inlet missing fault source event other =>
      exact absurd ((flowing.read event).2.2 fault rfl) other

end FrameInlet

end PeerWire
