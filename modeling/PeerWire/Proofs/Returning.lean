import Mathlib.Data.PFun
import PeerWire.Proofs.Tallying

/-! # Every call returns, and every iteration ends

A reader goes around two loops, one inside the other, and neither has a bound of its own: one reads
while no frame is complete, the other skips bodies that cannot be read. Beside the functions that
recurse on what is left stand these loops as such, as partial functions: a loop is the fixed point
of its turn, and has no answer if its turns go on for ever (`PFun.fix`). Each of them has the answer
of its function, whatever the source holds. An iteration over a source comes to its end after one
item for every four bytes and one more, since every frame that is taken has at least a length and a
tag (`MessageInlet.drain_returns`). -/

namespace PeerWire

/-! ## Reading a frame -/

/-- Frames take at least four bytes each, for a length and a tag: `4 * frames.length` in all. -/
theorem Frame.four_mul_length_le (frames : List Frame) :
    4 * frames.length ≤ (frames.flatMap Frame.toBytes).length := by
  induction frames with
  | nil => exact Nat.zero_le _
  | cons frame frames ih =>
      rw [List.flatMap_cons, List.length_append, List.length_cons, length_toBytes, wireLength,
        declaredLength, lengthWidth, tagWidth]
      omega

namespace FrameInlet

/-- One turn of a call: it returns by `.inl`, or goes on with what it has read. -/
def turn (inlet : FrameInlet) : (Except FrameError Frame × FrameInlet) ⊕ FrameInlet :=
  match Frame.takeFrom inlet.buffer inlet.limit with
  | .error error => .inl (.error error, inlet)
  | .ok (some (frame, buffer)) => .inl (.ok frame, { inlet with buffer })
  | .ok none =>
      match inlet.source.read chunkSize with
      | (.data [], source) => .inl (.error (endError inlet.buffer), { inlet with source })
      | (.data (byte :: bytes), source) =>
          .inr { inlet with source, buffer := inlet.buffer ++ byte :: bytes }
      | (.fault fault, source) =>
          if fault = .interrupted then .inr { inlet with source }
          else .inl (.error (.transport fault), { inlet with source })

/-- **Turns come to an end**, since every turn that goes on uses up some of the script: what holds
where a turn returns, and before a turn wherever it holds after it, holds of every inlet. -/
theorem turn_induction {motive : FrameInlet → Prop}
    (returned : ∀ inlet, inlet.turn = .inl inlet.receive → motive inlet)
    (again : ∀ inlet next, inlet.turn = .inr next → inlet.receive = next.receive → motive next →
      motive inlet) (inlet : FrameInlet) : motive inlet := by
  fun_induction receive inlet with
  | case1 inlet error refused =>
      refine returned inlet ?_
      rw [receive_of_error refused, turn, refused]
  | case2 inlet frame buffer taken =>
      refine returned inlet ?_
      rw [turn, receive, taken]
  | case3 inlet waits source read =>
      refine returned inlet ?_
      rw [receive_of_waits waits read]
      simp only [turn, waits, read]
  | case4 inlet waits byte bytes source read ih =>
      refine again inlet { inlet with source, buffer := inlet.buffer ++ byte :: bytes } ?_
        (receive_of_waits waits read) ih
      simp only [turn, waits, read]
  | case5 inlet waits source read ih =>
      have same : inlet.receive = receive { inlet with source } := by
        rw [receive_of_waits waits read]
        exact if_pos rfl
      refine again inlet { inlet with source } ?_ same ih
      simp only [turn, waits, read, if_true]
  | case6 inlet waits fault source read other =>
      refine returned inlet ?_
      rw [receive_of_waits waits read]
      simp only [turn, waits, read, if_neg other]

/-- Reads a frame, turn after turn. -/
def receiveLoop : FrameInlet →. Except FrameError Frame × FrameInlet :=
  PFun.fix (PFun.lift turn)

/-- **Reading a frame returns.** -/
theorem receiveLoop_eq (inlet : FrameInlet) : inlet.receiveLoop = Part.some inlet.receive := by
  induction inlet using turn_induction with
  | returned inlet returns =>
      exact Part.eq_some_iff.2 (PFun.fix_stop (Part.mem_some_iff.2 returns.symm))
  | again inlet next goesOn same ih =>
      have goesOn' : .inr next ∈ PFun.lift turn inlet := Part.mem_some_iff.2 goesOn.symm
      rw [receiveLoop, PFun.fix_fwd_eq goesOn', same]
      exact ih

end FrameInlet

namespace MessageInlet

variable {inlet following : MessageInlet} {frames : List Frame}
  {item : Option (Except LinkError Message)} {done : List (Except LinkError Message)}

/-! ## Reading a message -/

/-- What a call makes of what comes of reading a frame. -/
def afterFrame (inlet : MessageInlet) :
    Except FrameError Frame × FrameInlet → Except LinkError Message × MessageInlet
  | (.error cause, frames) => (.error (.frame cause), { inlet with frames })
  | (.ok frame, frames) =>
      (frame.outcome, { inlet with frames, tally := inlet.tally.countFrame frame })

/-- Reads one frame and the message in it, as soon as the loop has read the frame. -/
def receiveLoop : MessageInlet →. Except LinkError Message × MessageInlet :=
  fun inlet => inlet.frames.receiveLoop.map inlet.afterFrame

/-- One turn of a call that skips, by what comes of one frame: it goes on behind a body that cannot
be read while the limit allows, and returns otherwise. -/
def skipTurn :
    Nat × MessageInlet →. (Except LinkError Message × MessageInlet) ⊕ (Nat × MessageInlet)
  | (skipped, inlet) => inlet.receiveLoop.map fun
      | (.error (.decode _ _), next) =>
          match next.skipLimit with
          | none => .inr (skipped + 1, next)
          | some limit =>
              if skipped + 1 > limit then .inl (.error (.skippedTooMany (skipped + 1)), next)
              else .inr (skipped + 1, next)
      | answer => .inl answer

/-- Reads the next message, turn after turn. -/
def receiveValidLoop : MessageInlet →. Except LinkError Message × MessageInlet :=
  fun inlet => PFun.fix skipTurn (0, inlet)

/-- **Reading a message returns.** -/
theorem receiveLoop_eq (inlet : MessageInlet) : inlet.receiveLoop = Part.some inlet.receive := by
  rw [receiveLoop, FrameInlet.receiveLoop_eq, Part.map_some]
  congr 1
  match received : inlet.frames.receive with
  | (.error cause, frames) => rw [afterFrame, receive, received]
  | (.ok frame, frames) => rw [afterFrame, receive_of_ok received]

/-- The turns of a call that skips are those of its function, `receiveSkipping skipped`, whatever
was skipped before. -/
theorem fix_skipTurn (skipped : Nat) (inlet : MessageInlet) :
    PFun.fix skipTurn (skipped, inlet) = Part.some (inlet.receiveSkipping skipped) := by
  fun_induction receiveSkipping skipped inlet with
  | case1 skipped inlet tag cause following received unlimited ih =>
      have again : skipTurn (skipped, inlet) = Part.some (.inr (skipped + 1, following)) := by
        rw [skipTurn, receiveLoop_eq, received]
        simp only [Part.map_some, unlimited]
      rw [PFun.fix_fwd_eq (Part.eq_some_iff.1 again), ih]
  | case2 skipped inlet tag cause following received limit limited spent =>
      refine Part.eq_some_iff.2 (PFun.fix_stop (Part.eq_some_iff.1 ?_))
      rw [skipTurn, receiveLoop_eq, received]
      simp only [Part.map_some, limited, if_pos spent]
  | case3 skipped inlet tag cause following received limit limited more ih =>
      have again : skipTurn (skipped, inlet) = Part.some (.inr (skipped + 1, following)) := by
        rw [skipTurn, receiveLoop_eq, received]
        simp only [Part.map_some, limited, if_neg more]
      rw [PFun.fix_fwd_eq (Part.eq_some_iff.1 again), ih]
  | case4 skipped inlet outcome following other received =>
      refine Part.eq_some_iff.2 (PFun.fix_stop (Part.eq_some_iff.1 ?_))
      rw [skipTurn, receiveLoop_eq, received, Part.map_some]
      rcases outcome with (_ | ⟨tag, cause⟩ | _) | _
      · rfl
      · exact absurd rfl (other tag cause)
      · rfl
      · rfl

/-- **Skipping bodies that cannot be read returns**, with a limit or without one: the loop gives
`inlet.receiveValid`. -/
theorem receiveValidLoop_eq (inlet : MessageInlet) :
    inlet.receiveValidLoop = Part.some inlet.receiveValid :=
  fix_skipTurn 0 inlet

/-! ## Iterating to the end -/

/-- Every frame that is taken is four bytes or more: `4 * frames.length` are gone from the
weight. -/
theorem Takes.weight_add_le (takes : inlet.Takes frames following) :
    following.weight + 4 * frames.length ≤ inlet.weight := by
  obtain ⟨events, gives, bytes⟩ := takes.bytes
  have taken := Frame.four_mul_length_le frames
  have buffered := congrArg List.length bytes
  have pending := congrArg List.length gives.pending
  simp only [List.length_append] at buffered pending
  simp only [weight, FrameInlet.weight]
  omega

/-- **An iteration comes to its end**, after one item for every four bytes and one more:
`items.length ≤ inlet.weight / 4 + 1`. -/
theorem exists_items (done : List (Except LinkError Message)) (inlet : MessageInlet) :
    ∃ items, inlet.drain done = (done.reverse ++ items, (inlet.drain done).2) ∧
      many next (items.length + 1) inlet = (items.map some ++ [none], (inlet.drain done).2) ∧
      items.length ≤ inlet.weight / 4 + 1 := by
  fun_induction drain done inlet with
  | case1 done inlet following given =>
      refine ⟨[], by simp, ?_, Nat.zero_le _⟩
      rw [List.length_nil, many, given]
      rfl
  | case2 done inlet item following given unfinished ih =>
      obtain ⟨items, drained, asked, few⟩ := ih
      refine ⟨item :: items, ?_, ?_, ?_⟩
      · rw [drained]
        simp
      · rw [List.length_cons, many, given]
        simp only [asked]
        rfl
      · -- The iteration goes on, so that the item is that of a frame.
        obtain ⟨frame, -, takes⟩ | ⟨nothing | ⟨cause, same⟩, -⟩ := next_takes given
        · have lighter := takes.weight_add_le
          rw [List.length_singleton] at lighter
          rw [List.length_cons]
          omega
        · cases nothing
        · have finished := finished_of_ends given (.inr ⟨.frame cause, same, rfl⟩)
          rw [unfinished] at finished
          cases finished
  | case3 done inlet item following given finished =>
      have ended : following.finished := by simpa using finished
      refine ⟨[item], by simp, ?_, Nat.le_add_left 1 _⟩
      rw [List.length_singleton, many, given]
      simp only [many_next_of_finished ended]
      rfl

/-- **Reading a finite source ends.** Whatever the source still holds and whatever is pending, the
loop that reads a frame returns `inlet.receive`, and those that read a message return
`inlet.receive` and `inlet.receiveValid`, also when any number of bodies may be skipped. An
iteration over a source comes to its end after at most `source.pending.length / 4 + 1` items: one
for every four bytes of the source, and one more. -/
theorem drain_returns (source : Source) (limit : Nat) (skipLimit : Option Nat) :
    (∀ inlet : FrameInlet, inlet.receiveLoop = Part.some inlet.receive) ∧
    (∀ inlet : MessageInlet, inlet.receiveLoop = Part.some inlet.receive ∧
      inlet.receiveValidLoop = Part.some inlet.receiveValid) ∧
    ∃ items last,
      many next (items.length + 1) (ofSource source limit skipLimit) =
        (items.map some ++ [none], last) ∧
      (ofSource source limit skipLimit).drain [] = (items, last) ∧
      items.length ≤ source.pending.length / 4 + 1 := by
  refine ⟨FrameInlet.receiveLoop_eq, fun inlet => ⟨inlet.receiveLoop_eq, inlet.receiveValidLoop_eq⟩,
    ?_⟩
  obtain ⟨items, drained, asked, few⟩ := exists_items [] (ofSource source limit skipLimit)
  have weight : (ofSource source limit skipLimit).weight = source.pending.length :=
    Nat.zero_add source.pending.length
  rw [weight] at few
  exact ⟨items, _, asked, drained, few⟩

/-- Five bytes give as many items as they can: a body that cannot be read, and the end of the input
within a frame. -/
example :
    let inlet := ofSource ⟨[.data [0, 2, 0], .fault .interrupted, .data [38, 0]], 0⟩ 10 none
    (many next 3 inlet).1 =
      [some (.error (.decode 38 (.field "shutdown" "channel_id" 0 (.truncated 32 0)))),
        some (.error (.frame (.truncated 2 1))), none] := by
  cbv

end MessageInlet

end PeerWire
