import PeerWire.Proofs.Conservation
import PeerWire.Proofs.Returning

/-! # Buffers stay small

A buffer grows only while it leaves open what comes next, so that it is then shorter than the frame
that it waits for, whose length is within the limit and is said by two bytes; and it grows by one
read. This bounds it whatever a source holds, at every moment of every run: between two requests
and between two turns of a call (`Passes`), across failed reads, refused lengths and other limits
(`FrameInlet.length_buffer_le_of_passes`). -/

namespace PeerWire

/-- A buffer that leaves open what is in front of it is shorter than the largest frame within the
limit: it has `1 + min limit maxSize` bytes at most. -/
theorem Frame.length_le_of_waits {buffer : Bytes} {limit : Nat}
    (waits : takeFrom buffer limit = .ok none) : buffer.length ≤ 1 + min limit maxSize := by
  match buffer with
  | [] => exact Nat.zero_le _
  | [_] => exact Nat.le_add_right 1 _
  | high :: low :: rest =>
      have small : ofBigEndian [high, low] < 65536 := ofBigEndian_lt [high, low]
      obtain ⟨within, room⟩ :=
        (takeFrom_eq_none_iff.1 waits).no_refusal (ofBigEndian [high, low]) rfl
      -- With as many bytes as declared there would be a frame.
      have lacks : rest.length < ofBigEndian [high, low] := by
        by_contra enough
        obtain ⟨frame, left, content⟩ := contentDecoder_of_le_length room (Nat.le_of_not_lt enough)
        have taken : takeFrom (high :: low :: rest) limit = .ok (some (frame, left)) := by
          have admitted := checkDeclared_eq_ok_iff.2 ⟨within, room⟩
          rw [takeFrom]
          simp only [declaredBy?, admitted, lengthWidth, List.drop_succ_cons, List.drop_zero,
            content]
        rw [waits] at taken
        cases taken
      rw [List.length_cons, List.length_cons, maxSize]
      omega

/-- A read gives no more bytes than it asks for: `event.bytes.length ≤ limit`. -/
theorem Source.length_bytes_le_of_read {source next : Source} {event : ReadEvent} {limit : Nat}
    (found : source.read limit = (event, next)) : event.bytes.length ≤ limit := by
  obtain ⟨script, reads⟩ := source
  unfold read at found
  match script with
  | [] =>
      obtain ⟨rfl, -⟩ := Prod.mk.inj found
      exact Nat.zero_le _
  | .fault fault :: script =>
      obtain ⟨rfl, -⟩ := Prod.mk.inj found
      exact Nat.zero_le _
  | .data bytes :: script =>
      simp only at found
      split at found
      · rename_i whole
        obtain ⟨rfl, -⟩ := Prod.mk.inj found
        exact List.drop_eq_nil_iff.1 (List.isEmpty_iff.1 whole)
      · obtain ⟨rfl, -⟩ := Prod.mk.inj found
        exact List.length_take_le limit bytes

namespace FrameInlet

variable {inlet next state : FrameInlet} {outcome : Except FrameError Frame}
  {requests : List Request} {most : Nat}

/-! ## One turn -/

/-- A turn that goes on, `.inr next`, was waiting, and has read once. -/
theorem turn_eq_inr (again : inlet.turn = .inr next) :
    Frame.takeFrom inlet.buffer inlet.limit = .ok none ∧ next.limit = inlet.limit ∧
      ∃ event, inlet.source.read chunkSize = (event, next.source) ∧
        next.buffer = inlet.buffer ++ event.bytes := by
  unfold turn at again
  split at again
  · cases again
  · cases again
  · rename_i waits
    split at again
    · cases again
    · rename_i byte bytes source read
      cases again
      exact ⟨waits, rfl, _, read, rfl⟩
    · rename_i fault source read
      split at again
      · cases again
        exact ⟨waits, rfl, _, read, (List.append_nil _).symm⟩
      · cases again

/-- A turn that returns, `.inl (outcome, next)`, has nothing more in its buffer, and no other
limit. -/
theorem turn_eq_inl (returned : inlet.turn = .inl (outcome, next)) :
    next.limit = inlet.limit ∧ next.buffer.length ≤ inlet.buffer.length := by
  unfold turn at returned
  split at returned
  · cases returned
    exact ⟨rfl, Nat.le_refl _⟩
  · rename_i frame buffer taken
    cases returned
    have whole := congrArg List.length (Frame.eq_of_takeFrom taken)
    rw [List.length_append] at whole
    refine ⟨rfl, ?_⟩
    show buffer.length ≤ inlet.buffer.length
    omega
  · split at returned
    · cases returned
      exact ⟨rfl, Nat.le_refl _⟩
    · cases returned
    · split at returned
      · cases returned
      · cases returned
        exact ⟨rfl, Nat.le_refl _⟩

/-! ## Every moment of a run -/

/-- The states that some requests lead an inlet through, one after the other: those between two
requests, and those between two turns of a call. -/
inductive Passes : FrameInlet → List Request → FrameInlet → Prop where
  /-- The state that it is in. -/
  | here (inlet : FrameInlet) (requests : List Request) : Passes inlet requests inlet
  /-- A call goes on with another turn. -/
  | again {inlet next state : FrameInlet} {requests : List Request} :
      inlet.turn = .inr next → Passes next (.receive :: requests) state →
      Passes inlet (.receive :: requests) state
  /-- A call returns. -/
  | returned {inlet next state : FrameInlet} {outcome : Except FrameError Frame}
      {requests : List Request} :
      inlet.turn = .inl (outcome, next) → Passes next requests state →
      Passes inlet (.receive :: requests) state
  /-- Another limit is set. -/
  | setLimit {inlet state : FrameInlet} {limit : Nat} {requests : List Request} :
      Passes (inlet.withLimit limit) requests state →
      Passes inlet (.setLimit limit :: requests) state

/-- What a call leaves is passed, and so is what the requests after it lead through. -/
theorem Passes.of_receive (later : Passes inlet.receive.2 requests state) :
    Passes inlet (.receive :: requests) state := by
  induction inlet using turn_induction with
  | returned inlet returns => exact .returned returns later
  | again inlet next goesOn same ih =>
      rw [same] at later
      exact .again goesOn (ih later)

/-- Requests lead to what they leave, `(inlet.performAll requests).2`. -/
theorem passes_performAll (inlet : FrameInlet) (requests : List Request) :
    Passes inlet requests (inlet.performAll requests).2 := by
  induction requests generalizing inlet with
  | nil => exact .here inlet []
  | cons request requests ih =>
      cases request with
      | receive => exact .of_receive (ih inlet.receive.2)
      | setLimit limit => exact .setLimit (ih (inlet.withLimit limit))

/-- **A buffer never holds more** than the start of a frame within the limits and one read: `1 +
most + chunkSize` bytes. -/
theorem Passes.length_buffer_le (passes : Passes inlet requests state)
    (within : min inlet.limit Frame.maxSize ≤ most)
    (later : ∀ limit, .setLimit limit ∈ requests → min limit Frame.maxSize ≤ most)
    (start : inlet.buffer.length ≤ 1 + most + chunkSize) :
    state.buffer.length ≤ 1 + most + chunkSize := by
  induction passes with
  | here inlet requests => exact start
  | @again inlet next state requests goesOn _ ih =>
      -- The buffer was waiting, and has grown by one read.
      obtain ⟨waits, limit, event, read, buffer⟩ := turn_eq_inr goesOn
      have short := Frame.length_le_of_waits waits
      have chunk := Source.length_bytes_le_of_read read
      refine ih ?_ later ?_
      · rw [limit]
        exact within
      · rw [buffer, List.length_append]
        omega
  | @returned inlet next state outcome requests returns _ ih =>
      obtain ⟨limit, shorter⟩ := turn_eq_inl returns
      refine ih ?_ (fun limit' member => later limit' (List.mem_cons_of_mem _ member)) ?_
      · rw [limit]
        exact within
      · exact Nat.le_trans shorter start
  | @setLimit inlet state limit requests _ ih =>
      exact ih (later limit List.mem_cons_self)
        (fun limit' member => later limit' (List.mem_cons_of_mem _ member)) start

/-- **The buffer of an inlet is bounded whatever its source holds.** Over any source, requests in
any order lead an inlet through states, of which the one that they leave is one; and the buffer of
each of them holds at most the largest frame less one byte, and one read: `1 + 65535 + 8192` bytes.
As long as the limit is the one from the start, the largest frame is that within this limit, and
`min limit 65535` stands for its length. -/
theorem length_buffer_le_of_passes (source : Source) (limit : Nat) (requests : List Request) :
    Passes { source, limit } requests (performAll { source, limit } requests).2 ∧
    ∀ state, Passes { source, limit } requests state →
      state.buffer.length ≤ 1 + 65535 + 8192 ∧
      ((∀ limit', .setLimit limit' ∈ requests → limit' = limit) →
        state.buffer.length ≤ 1 + min limit 65535 + 8192) := by
  refine ⟨passes_performAll _ requests, fun state passes => ⟨?_, fun same => ?_⟩⟩
  · exact passes.length_buffer_le (Nat.min_le_right _ _) (fun _ _ => Nat.min_le_right _ _)
      (Nat.zero_le _)
  · refine passes.length_buffer_le (Nat.le_refl _) (fun limit' set => ?_) (Nat.zero_le _)
    rw [same limit' set]
    exact Nat.le_refl _

/-- All but the last byte of a frame with nothing but a tag are there when as many bytes arrive as
one read can give. The buffer then holds as much as it ever can under the limit, which is set again
to what it is. -/
theorem length_buffer_le_of_passes_full :
    let block : Bytes := List.replicate 8192 7
    let source : Source := ⟨[.data [0, 2, 0], .data block], 0⟩
    let requests : List Request := [.receive, .setLimit 2]
    let state : FrameInlet := ⟨⟨[], 2⟩, [0, 2, 0] ++ block, 2⟩
    Passes { source, limit := 2 } requests state ∧
      (∀ limit', .setLimit limit' ∈ requests → limit' = 2) ∧
      state.buffer.length ≤ 1 + min 2 65535 + 8192 ∧
      state.buffer.length = 1 + min 2 65535 + 8192 := by
  intro block source requests state
  have size : block.length = 8192 := List.length_replicate
  have second : turn ⟨⟨[.data block], 1⟩, [0, 2, 0], 2⟩ = .inr state := by
    obtain ⟨byte, bytes, nonempty⟩ : ∃ byte bytes, block = byte :: bytes := by
      refine List.exists_cons_of_ne_nil (List.ne_nil_of_length_pos ?_)
      rw [size]
      exact Nat.succ_pos 8191
    have waits : Frame.takeFrom [0, 2, 0] 2 = .ok none := by
      cbv
    have read : Source.read chunkSize ⟨[.data block], 1⟩ = (.data block, ⟨[], 2⟩) := by
      have whole : block.drop chunkSize = [] := List.drop_eq_nil_of_le (Nat.le_of_eq size)
      simp only [Source.read, whole, List.isEmpty_nil, if_true]
    rw [turn, waits, read]
    simp only [nonempty, state]
  have passes : Passes { source, limit := 2 } requests state :=
    .again rfl (.again second (.here state requests))
  have same : ∀ limit', .setLimit limit' ∈ requests → limit' = 2 := by
    intro limit' set
    simpa [requests] using set
  have full : state.buffer.length = 1 + min 2 65535 + 8192 := by
    rw [List.length_append, size]
    rfl
  exact ⟨passes, same, ((length_buffer_le_of_passes source 2 requests).2 state passes).2 same, full⟩

end FrameInlet

end PeerWire
