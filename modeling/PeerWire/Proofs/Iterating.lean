import PeerWire.Proofs.Skipping

/-! # Iterating over outcomes

The items of an iteration are the outcomes of calls that read one frame each, up to the first error
of the framing. That error is the last item, unless it is the end of the input between frames, which
is no item. From then on the iteration is over: it gives nothing and touches nothing, whatever else
is asked of the reader and whatever its source still holds (`MessageInlet.next_of_receiveMany`). -/

namespace PeerWire

namespace MessageInlet

/-- What an iteration makes of some outcomes: these, up to the first error of the framing, and
`none` from then on. The end of the input between frames is not given. -/
def itemsOf :
    List (Except LinkError Message) → List (Option (Except LinkError Message))
  | [] => []
  | .error (.frame .closed) :: outcomes => none :: List.replicate outcomes.length none
  | .error (.frame cause) :: outcomes =>
      some (.error (.frame cause)) :: List.replicate outcomes.length none
  | outcome :: outcomes => some outcome :: itemsOf outcomes

/-- An answer of an iteration after which it is over: `none`, or a fatal error. -/
def Ends (item : Option (Except LinkError Message)) : Prop :=
  item = none ∨ ∃ error : LinkError, item = some (.error error) ∧ error.isFatal

/-- What can be asked of a reader. -/
inductive Request where
  /-- To read a frame and the message in it. -/
  | receive
  /-- To read the next message, skipping bodies that cannot be read. -/
  | receiveValid
  /-- To go on with the iteration. -/
  | next
  deriving DecidableEq, Repr

/-- Does what is asked. -/
def perform (inlet : MessageInlet) : Request → Option (Except LinkError Message) × MessageInlet
  | .receive =>
      match inlet.receive with
      | (outcome, inlet) => (some outcome, inlet)
  | .receiveValid =>
      match inlet.receiveValid with
      | (outcome, inlet) => (some outcome, inlet)
  | .next => inlet.next

/-- Does what is asked, one request after the other. -/
def performAll (inlet : MessageInlet) :
    List Request → List (Option (Except LinkError Message)) × MessageInlet
  | [] => ([], inlet)
  | request :: requests =>
      match inlet.perform request with
      | (answer, inlet) =>
          match inlet.performAll requests with
          | (answers, inlet) => (answer :: answers, inlet)

variable {inlet stopped following : MessageInlet} {outcome : Except LinkError Message}
  {item : Option (Except LinkError Message)}

/-! ## When the iteration is over -/

/-- Reading a frame does not look at the iteration. -/
theorem finished_of_receive (received : inlet.receive = (outcome, following)) :
    following.finished = inlet.finished := by
  unfold receive at received
  split at received
  · cases received
    rfl
  · split at received <;> cases received <;> rfl

/-- Nor does skipping. -/
theorem finished_receiveSkipping (skipped : Nat) (inlet : MessageInlet) :
    (inlet.receiveSkipping skipped).2.finished = inlet.finished := by
  fun_induction receiveSkipping skipped inlet with
  | case1 skipped inlet tag cause following received unlimited ih =>
      rw [ih, finished_of_receive received]
  | case2 skipped inlet tag cause following received limit limited spent =>
      exact finished_of_receive received
  | case3 skipped inlet tag cause following received limit limited more ih =>
      rw [ih, finished_of_receive received]
  | case4 skipped inlet outcome following other received => exact finished_of_receive received

/-- An iteration that is over gives nothing and touches nothing: `inlet.next = (none, inlet)`. -/
theorem next_of_finished (finished : inlet.finished) : inlet.next = (none, inlet) := by
  rw [next, if_pos finished]

/-- It stays over, whatever `request` is made. -/
theorem finished_perform (finished : inlet.finished) (request : Request) :
    (inlet.perform request).2.finished := by
  cases request with
  | receive => exact (finished_of_receive rfl).trans finished
  | receiveValid => exact (finished_receiveSkipping 0 inlet).trans finished
  | next =>
      show inlet.next.2.finished
      rw [next_of_finished finished]
      exact finished

/-- And whatever is asked after that. -/
theorem finished_performAll (finished : inlet.finished) (requests : List Request) :
    (inlet.performAll requests).2.finished := by
  induction requests generalizing inlet with
  | nil => exact finished
  | cons request requests ih => exact ih (finished_perform finished request)

/-- Nothing, or a fatal error, is only given when the iteration is over. -/
theorem finished_of_ends (given : inlet.next = (item, stopped)) (ends : Ends item) :
    stopped.finished := by
  unfold next at given
  split at given
  · rename_i finished
    cases given
    exact finished
  · split at given
    · split at given
      · cases given
        rfl
      · split at given
        · cases given
          rfl
        · rename_i recoverable
          cases given
          rcases ends with none | ⟨error, same, fatal⟩
          · cases none
          · cases same
            exact absurd fatal recoverable
    · cases given
      rcases ends with none | ⟨error, same, fatal⟩
      · cases none
      · cases same

/-! ## Until it is over -/

/-- Once over, it gives `none`, however often it is asked. -/
theorem many_next_of_finished (finished : inlet.finished) (count : Nat) :
    many next count inlet = (List.replicate count none, inlet) := by
  induction count with
  | zero => rfl
  | succ count ih =>
      rw [many, next_of_finished finished]
      simp only [ih, List.replicate_succ]

/-- Reading one frame skips nothing, and so never says `skippedTooMany`. -/
theorem receive_ne_skippedTooMany (inlet : MessageInlet) (count : Nat) :
    inlet.receive.1 ≠ .error (.skippedTooMany count) := by
  unfold receive
  split
  · simp
  · split <;> simp

/-- The end of the input between frames, `closed`, ends the iteration without an item. -/
theorem next_of_closed (unfinished : inlet.finished = false)
    (received : inlet.receive = (.error (.frame .closed), following)) :
    inlet.next = (none, { following with finished := true }) := by
  rw [next, unfinished, received]
  rfl

/-- Every other error of the framing is the last item. -/
theorem next_of_frame_error {cause : FrameError} (unfinished : inlet.finished = false)
    (received : inlet.receive = (.error (.frame cause), following)) (other : cause ≠ .closed) :
    inlet.next = (some (.error (.frame cause)), { following with finished := true }) := by
  have unclosed : LinkError.isClosed (.frame cause) = false := by
    cases cause with
    | closed => exact absurd rfl other
    | oversize | tooShort | truncated | transport => rfl
  rw [next, unfinished, received]
  simp only [unclosed]
  rfl

/-- What comes of a frame is an item, and the iteration goes on: `inlet.next = (some outcome,
following)`. -/
theorem next_of_frame (unfinished : inlet.finished = false)
    (received : inlet.receive = (outcome, following))
    (read : ∀ cause, outcome ≠ .error (.frame cause)) : inlet.next = (some outcome, following) := by
  rw [next, unfinished, received]
  match outcome with
  | .ok message => rfl
  | .error (.decode tag cause) => rfl
  | .error (.frame cause) => exact absurd rfl (read cause)
  | .error (.skippedTooMany count) =>
      exact absurd (congrArg Prod.fst received) (receive_ne_skippedTooMany inlet count)

/-- As many outcomes as calls. -/
theorem length_receiveMany (count : Nat) (inlet : MessageInlet) :
    (inlet.receiveMany count).1.length = count := by
  rw [receiveMany_eq_many, length_many]

/-- **The items of an iteration** that is not over are made by `itemsOf` of the outcomes of as many
calls that read one frame each. -/
theorem many_next_eq (unfinished : inlet.finished = false) (count : Nat) :
    (many next count inlet).1 = itemsOf (inlet.receiveMany count).1 := by
  induction count generalizing inlet with
  | zero => rfl
  | succ count ih =>
      obtain ⟨outcome, following, received⟩ :
        ∃ outcome following, inlet.receive = (outcome, following) := ⟨_, _, rfl⟩
      have ended : ({ following with finished := true } : MessageInlet).finished := rfl
      rw [receiveMany_succ received rfl, many]
      -- An error of the framing is where the iteration ends, while the calls go on.
      by_cases framing : ∃ cause, outcome = .error (.frame cause)
      · obtain ⟨cause, rfl⟩ := framing
        by_cases closed : cause = .closed
        · subst closed
          rw [next_of_closed unfinished received]
          simp only [many_next_of_finished ended, itemsOf, length_receiveMany]
        · rw [next_of_frame_error unfinished received closed]
          simp only [many_next_of_finished ended]
          cases cause with
          | closed => exact absurd rfl closed
          | oversize | tooShort | truncated | transport =>
              simp only [itemsOf, length_receiveMany]
      · have read : ∀ cause, outcome ≠ .error (.frame cause) :=
          fun cause same => framing ⟨cause, same⟩
        have going : following.finished = false := by
          rw [finished_of_receive received, unfinished]
        rw [next_of_frame unfinished received read]
        simp only [ih going]
        rcases outcome with (cause | _ | _) | _
        · exact absurd rfl (read cause)
        · rfl
        · rfl
        · rfl

/-- **The iteration gives the outcomes up to the first error of the framing, and is over then.** The
answers of an iteration over a source are made by `itemsOf` of the outcomes of as many calls that
read one frame each from the same source. Once an answer is nothing or a fatal error, the iteration
gives nothing and changes nothing, `later.next = (none, later)`, neither the source nor the buffer
nor the tally, whatever has been asked since. -/
theorem next_of_receiveMany (source : Source) (limit : Nat) (skipLimit : Option Nat) :
    (∀ count, (many next count (ofSource source limit skipLimit)).1 =
      itemsOf ((ofSource source limit skipLimit).receiveMany count).1) ∧
    ∀ (inlet stopped : MessageInlet) (item : Option (Except LinkError Message)),
      inlet.next = (item, stopped) → Ends item →
        ∀ (requests : List Request) (answers : List (Option (Except LinkError Message)))
          (later : MessageInlet),
          stopped.performAll requests = (answers, later) → later.next = (none, later) := by
  refine ⟨many_next_eq rfl, ?_⟩
  intro inlet stopped item given ends requests answers later asked
  have ended := finished_performAll (finished_of_ends given ends) requests
  rw [asked] at ended
  exact next_of_finished ended

/-- The input ends within a frame and goes on later. The iteration reports the end and is over; a
call that reads one frame goes on with the frame, and the iteration stays over after that. -/
theorem next_of_receiveMany_cut_short :
    let script : List ReadEvent := [.data [0, 4, 0, 1], .data [], .data [7, 8]]
    let inlet := ofSource ⟨script, 0⟩ 10 none
    let resumed := inlet.next.2.performAll [.receive]
    (inlet.receiveMany 2).1 = [.error (.frame (.truncated 6 4)), .ok (.unknown 1 [7, 8])] ∧
      (many next 2 inlet).1 = [some (.error (.frame (.truncated 6 4))), none] ∧
      resumed.1 = [some (.ok (.unknown 1 [7, 8]))] ∧ resumed.2.next = (none, resumed.2) := by
  intro script inlet resumed
  have outcomes : (inlet.receiveMany 2).1 =
      [.error (.frame (.truncated 6 4)), .ok (.unknown 1 [7, 8])] := by
    cbv
  have answers : (inlet.performAll [.next, .receive]).1 =
      [some (.error (.frame (.truncated 6 4))), some (.ok (.unknown 1 [7, 8]))] := by
    cbv
  obtain ⟨first, again⟩ : inlet.next.1 = some (.error (.frame (.truncated 6 4))) ∧
    resumed.1 = [some (.ok (.unknown 1 [7, 8]))] := List.cons.inj answers
  obtain ⟨items, ended⟩ := next_of_receiveMany ⟨script, 0⟩ 10 none
  refine ⟨outcomes, ?_, again, ?_⟩
  · rw [items, outcomes]
    rfl
  · exact ended inlet inlet.next.2 _ (Prod.ext first rfl) (.inr ⟨_, rfl, rfl⟩) [.receive] _ _ rfl

end MessageInlet

end PeerWire
