import PeerWire.Proofs.Conservation

/-! # Going on after a refused length

An inlet that refuses a length keeps it. Until its limit changes every call refuses the length
again, reads nothing and changes nothing; with a higher limit the inlet goes on as one that has had
this limit from the start, however its source cuts, fails and ends. A length without room for a tag
stays refused under all limits that have room for one (`FrameInlet.receiveMany_resumes`). -/

namespace PeerWire

namespace Frame

variable {buffer : Bytes} {limit limit' size most length : Nat}

/-- A length is over the limit that it is said to be over: `most = limit`. -/
theorem limit_of_oversize (refused : takeFrom buffer limit = .error (.oversize size most)) :
    most = limit := by
  obtain ⟨declared, -, check⟩ := takeFrom_eq_error_iff.1 refused
  unfold checkDeclared at check
  split at check
  · cases check
    rfl
  · split at check <;> cases check

/-- A higher limit, `limit' ≥ limit`, shows only in lengths that are over the lower one. -/
theorem takeFrom_of_limit_le (lower : limit ≤ limit')
    (admitted : ∀ size most, takeFrom buffer limit ≠ .error (.oversize size most)) :
    takeFrom buffer limit' = takeFrom buffer limit := by
  unfold takeFrom at admitted ⊢
  cases found : declaredBy? buffer with
  | none => rfl
  | some declared =>
      have keeps : ¬declared > limit := by
        intro beyond
        refine admitted declared limit ?_
        simp [found, checkDeclared, beyond]
      have same : checkDeclared declared limit' = checkDeclared declared limit := by
        rw [checkDeclared, checkDeclared, if_neg keeps, if_neg (by omega)]
      simp only [same]

/-- A length without room for a tag is refused as `tooShort` by all limits with room for one. -/
theorem takeFrom_of_tooShort (refused : takeFrom buffer limit = .error (.tooShort length))
    (room : tagWidth ≤ limit') : takeFrom buffer limit' = .error (.tooShort length) := by
  obtain ⟨declared, found, check⟩ := takeFrom_eq_error_iff.1 refused
  refine takeFrom_eq_error_iff.2 ⟨declared, found, ?_⟩
  unfold checkDeclared at check
  split at check
  · cases check
  · split at check
    · rename_i short
      cases check
      rw [checkDeclared, if_neg (by omega), if_pos short]
    · cases check

end Frame

namespace FrameInlet

variable {inlet before stopped next : FrameInlet} {limit limit' size most length count : Nat}
  {outcome : Except FrameError Frame} {outcomes : List (Except FrameError Frame)}
  {error : FrameError}

/-! ## Stuck at a length -/

/-- A call that refuses a length keeps it in the buffer. -/
theorem Call.takeFrom_of_refusal {pending left : Bytes} {events : List ReadEvent}
    (call : Call limit pending events outcome left) (failed : outcome = .error error)
    (refusal : Frame.Refusal error) : Frame.takeFrom left limit = .error error := by
  induction call with
  | frame _ => cases failed
  | refused refused =>
      cases failed
      exact refused
  | @ended pending waits =>
      have reported : endError pending = error := Except.error.inj failed
      rw [← reported, endError] at refusal
      split at refusal <;> cases refusal
  | failed _ _ =>
      cases failed
      cases refusal
  | data _ _ ih => exact ih failed
  | interrupted _ _ ih => exact ih failed

/-- After a call that refuses a length, `next` is at this length. -/
theorem takeFrom_of_receive (run : inlet.receive = (.error error, next))
    (refusal : Frame.Refusal error) : Frame.takeFrom next.buffer next.limit = .error error := by
  obtain ⟨events, outcome, last, same, -, call, limit⟩ := inlet.receive_call
  rw [run] at same
  obtain ⟨rfl, rfl⟩ := Prod.mk.inj same
  rw [limit]
  exact call.takeFrom_of_refusal rfl refusal

/-- No call changes the limit: `next.limit = inlet.limit`. -/
theorem limit_of_receive (run : inlet.receive = (outcome, next)) : next.limit = inlet.limit := by
  obtain ⟨_, _, _, same, -, -, limit⟩ := inlet.receive_call
  rw [run] at same
  obtain ⟨rfl, rfl⟩ := Prod.mk.inj same
  exact limit

/-- Under limits with room for a tag, a length without room for one is refused as `tooShort`
whatever is asked, and stays where it is. -/
theorem performAll_of_tooShort
    (refused : Frame.takeFrom inlet.buffer inlet.limit = .error (.tooShort length))
    (requests : List Request)
    (room : ∀ limit', Request.setLimit limit' ∈ requests → Frame.tagWidth ≤ limit') :
    (∀ outcome ∈ (inlet.performAll requests).1, outcome = .error (.tooShort length)) ∧
      (inlet.performAll requests).2.source = inlet.source ∧
      (inlet.performAll requests).2.buffer = inlet.buffer := by
  induction requests generalizing inlet with
  | nil => exact ⟨by simp [performAll], rfl, rfl⟩
  | cons request requests ih =>
      have later : ∀ limit', Request.setLimit limit' ∈ requests → Frame.tagWidth ≤ limit' :=
        fun limit' member => room limit' (List.mem_cons_of_mem _ member)
      cases request with
      | receive =>
          have step : inlet.perform .receive = (some (.error (.tooShort length)), inlet) := by
            rw [perform, receive_of_error refused]
          obtain ⟨each, source, buffer⟩ := ih refused later
          simp only [performAll, step, Option.toList_some]
          refine ⟨?_, source, buffer⟩
          rintro outcome (_ | ⟨_, member⟩)
          · rfl
          · exact each outcome member
      | setLimit limit' =>
          -- The length in the buffer does not show the limit, so only the limit is another one.
          have enough : Frame.tagWidth ≤ limit' := room limit' List.mem_cons_self
          have still :
              Frame.takeFrom (inlet.withLimit limit').buffer (inlet.withLimit limit').limit =
                .error (.tooShort length) := Frame.takeFrom_of_tooShort refused enough
          exact ih still later

/-! ## Two limits -/

/-- **A call under a higher limit**, that of `inlet.withLimit limit'`. Unless the call under the
lower one finds a length over it, it is the same call; and if it does, it is the call that goes on
from there under the higher limit. -/
theorem receive_withLimit (inlet : FrameInlet) (lower : inlet.limit ≤ limit') :
    ((∀ size most, inlet.receive.1 ≠ .error (.oversize size most)) ∧
      (inlet.withLimit limit').receive = (inlet.receive.1, inlet.receive.2.withLimit limit')) ∨
    ((∃ size, inlet.receive.1 = .error (.oversize size inlet.limit)) ∧
      (inlet.withLimit limit').receive = (inlet.receive.2.withLimit limit').receive) := by
  -- While the lower limit waits, so does the higher one, and both read the same.
  have waiting {inlet : FrameInlet} (lower : inlet.limit ≤ limit')
      (waits : Frame.takeFrom inlet.buffer inlet.limit = .ok none) :
      Frame.takeFrom (inlet.withLimit limit').buffer (inlet.withLimit limit').limit = .ok none := by
    have same : Frame.takeFrom inlet.buffer limit' = Frame.takeFrom inlet.buffer inlet.limit :=
      Frame.takeFrom_of_limit_le lower (by simp [waits])
    exact same.trans waits
  fun_induction receive inlet with
  | case1 inlet error refused =>
      by_cases beyond : ∃ size most, error = .oversize size most
      · obtain ⟨size, most, rfl⟩ := beyond
        right
        rw [Frame.limit_of_oversize refused]
        exact ⟨⟨size, rfl⟩, rfl⟩
      · left
        have admitted : ∀ size most, error ≠ .oversize size most :=
          fun size most same => beyond ⟨size, most, same⟩
        have higher : Frame.takeFrom inlet.buffer limit' = .error error := by
          rw [Frame.takeFrom_of_limit_le lower (by simpa [refused] using admitted), refused]
        exact ⟨by simpa using admitted, receive_of_error higher⟩
  | case2 inlet frame buffer taken =>
      left
      have higher : Frame.takeFrom inlet.buffer limit' = .ok (some (frame, buffer)) := by
        rw [Frame.takeFrom_of_limit_le lower (by simp [taken]), taken]
      refine ⟨by simp, ?_⟩
      show receive ⟨inlet.source, inlet.buffer, limit'⟩ = _
      rw [receive, higher]
      rfl
  | case3 inlet waits source read =>
      left
      refine ⟨?_, receive_of_waits (waiting lower waits) read⟩
      intro size most
      unfold endError
      split <;> simp
  | case4 inlet waits byte bytes source read ih =>
      rw [receive_of_waits (waiting lower waits) read]
      exact ih lower
  | case5 inlet waits source read ih =>
      rw [receive_of_waits (waiting lower waits) read]
      exact ih lower
  | case6 inlet waits fault source read other =>
      left
      refine ⟨by simp, ?_⟩
      rw [receive_of_waits (waiting lower waits) read]
      exact if_neg other

/-- Calls that find no length over the lower limit are the same calls under the higher one: they
leave `next.withLimit limit'`. -/
theorem receiveMany_withLimit (lower : inlet.limit ≤ limit')
    (run : inlet.receiveMany count = (outcomes, next))
    (admitted : ∀ outcome ∈ outcomes, ∀ size most, outcome ≠ .error (.oversize size most)) :
    (inlet.withLimit limit').receiveMany count = (outcomes, next.withLimit limit') := by
  induction count generalizing inlet outcomes with
  | zero =>
      obtain ⟨rfl, rfl⟩ := Prod.mk.inj run
      rfl
  | succ count ih =>
      obtain ⟨outcome, middle, first⟩ : ∃ outcome middle, inlet.receive = (outcome, middle) :=
        ⟨_, _, rfl⟩
      obtain ⟨later, last, rest⟩ : ∃ later last, middle.receiveMany count = (later, last) :=
        ⟨_, _, rfl⟩
      rw [receiveMany, first] at run
      simp only [rest] at run
      obtain ⟨rfl, rfl⟩ := Prod.mk.inj run
      have same : (inlet.withLimit limit').receive = (outcome, middle.withLimit limit') := by
        rcases inlet.receive_withLimit lower with ⟨-, same⟩ | ⟨⟨size, beyond⟩, -⟩
        · rw [same, first]
        · rw [first] at beyond
          exact absurd beyond (admitted outcome List.mem_cons_self size inlet.limit)
      have lower' : middle.limit ≤ limit' := by
        rw [limit_of_receive first]
        exact lower
      have others := ih lower' rest fun other member =>
        admitted other (List.mem_cons_of_mem _ member)
      rw [receiveMany, same]
      simp only [others]

/-- **A refused length is kept, and reading can go on from it.** Over any source, let an inlet make
some calls that find no length over its limit, and then one that does, by `oversize size most`. The
error names this limit; all further calls fail with it, without reading or changing anything. Given
a higher limit there, by `stopped.withLimit limit'`, the inlet has from then on the outcomes that an
inlet with that limit from the start has over the same source, from the same call on. After a call
that finds a length without room for a tag, every call fails with `tooShort length` whatever limits
with room for a tag are set meanwhile, and neither the source nor the buffer changes. -/
theorem receiveMany_resumes (source : Source) (limit : Nat) :
    (∀ count outcomes before size most stopped,
      receiveMany count { source, limit } = (outcomes, before) →
      (∀ outcome ∈ outcomes, ∀ size most, outcome ≠ .error (.oversize size most)) →
      before.receive = (.error (.oversize size most), stopped) →
        most = limit ∧
        (∀ more, stopped.receiveMany more =
          (List.replicate more (.error (.oversize size limit)), stopped)) ∧
        ∀ limit', limit ≤ limit' → ∀ more,
          ((stopped.withLimit limit').receiveMany more).1 =
            (receiveMany (count + more) { source, limit := limit' }).1.drop count) ∧
    ∀ (before : FrameInlet) length stopped,
      before.receive = (.error (.tooShort length), stopped) →
        ∀ requests, (∀ limit', Request.setLimit limit' ∈ requests → Frame.tagWidth ≤ limit') →
          (∀ outcome ∈ (stopped.performAll requests).1, outcome = .error (.tooShort length)) ∧
          (stopped.performAll requests).2.source = stopped.source ∧
          (stopped.performAll requests).2.buffer = stopped.buffer := by
  refine ⟨?_, ?_⟩
  · intro count outcomes before size most stopped run admitted refused
    have unchanged : before.limit = limit := by
      obtain ⟨_, _, _, same, -, -, limits⟩ := receiveMany_course count { source, limit }
      rw [run] at same
      obtain ⟨rfl, rfl⟩ := Prod.mk.inj same
      exact limits
    have stuck := takeFrom_of_receive refused (.oversize size most)
    have named : most = limit := by
      rw [Frame.limit_of_oversize stuck, limit_of_receive refused, unchanged]
    rw [named] at stuck
    refine ⟨named, receiveMany_of_error stuck, ?_⟩
    intro limit' lower more
    have lower' : before.limit ≤ limit' := by
      rw [unchanged]
      exact lower
    -- Both inlets come to the same place, where the one with the higher limit goes on.
    have first : receiveMany count { source, limit := limit' } =
        (outcomes, before.withLimit limit') :=
      receiveMany_withLimit (show ({ source, limit } : FrameInlet).limit ≤ limit' from lower) run
        admitted
    have next : (before.withLimit limit').receive = (stopped.withLimit limit').receive := by
      rcases before.receive_withLimit lower' with ⟨none, -⟩ | ⟨-, same⟩
      · rw [refused] at none
        exact absurd rfl (none size most)
      · rw [same, refused]
    have others : ((before.withLimit limit').receiveMany more).1 =
        ((stopped.withLimit limit').receiveMany more).1 := by
      cases more with
      | zero => rfl
      | succ more => rw [receiveMany, receiveMany, next]
    have counted : outcomes.length = count := by
      have number := length_receiveMany count { source, limit }
      rw [run] at number
      exact number
    rw [receiveMany_add more first, List.drop_left' counted, others]
  · intro before length stopped refused requests room
    exact performAll_of_tooShort (takeFrom_of_receive refused (.tooShort length)) requests room

/-- A frame of six bytes comes in pieces to an inlet that takes four. Given a limit of ten it goes
on with the failing read and then the frame, as it would have done with that limit; the length after
that has no room for a tag, and stays refused. -/
theorem receiveMany_resumes_longer_frame :
    let script : List ReadEvent :=
      [.data [0, 2, 0, 18, 0], .fault .interrupted, .data [6, 0], .fault .timedOut,
        .data [1, 7, 8, 9, 10, 0, 1]]
    let source : Source := ⟨script, 0⟩
    let before := (receiveMany 1 { source, limit := 4 }).2
    let stopped := before.receive.2
    let resumed := stopped.withLimit 10
    before.receive.1 = .error (.oversize 6 4) ∧
      stopped.receiveMany 2 = (List.replicate 2 (.error (.oversize 6 4)), stopped) ∧
      (resumed.receiveMany 2).1 = (receiveMany 3 { source, limit := 10 }).1.drop 1 ∧
      (resumed.receiveMany 2).1 = [.error (.transport .timedOut), .ok ⟨1, [7, 8, 9, 10]⟩] ∧
      ∀ outcome ∈
          ((resumed.receiveMany 2).2.receive.2.performAll [.receive, .setLimit 2, .receive]).1,
        outcome = .error (.tooShort 1) := by
  intro script source before stopped resumed
  have answers :
      (performAll { source, limit := 4 }
        [.receive, .receive, .setLimit 10, .receive, .receive, .receive]).1 =
      [.ok ⟨18, []⟩, .error (.oversize 6 4), .error (.transport .timedOut), .ok ⟨1, [7, 8, 9, 10]⟩,
        .error (.tooShort 1)] := by
    cbv
  obtain ⟨outcomes, refused, later, short⟩ :
      (receiveMany 1 { source, limit := 4 }).1 = [.ok ⟨18, []⟩] ∧
      before.receive.1 = .error (.oversize 6 4) ∧
      (resumed.receiveMany 2).1 = [.error (.transport .timedOut), .ok ⟨1, [7, 8, 9, 10]⟩] ∧
      (resumed.receiveMany 2).2.receive.1 = .error (.tooShort 1) := by
    obtain ⟨first, rest⟩ := List.cons.inj answers
    obtain ⟨second, rest⟩ := List.cons.inj rest
    obtain ⟨third, rest⟩ := List.cons.inj rest
    obtain ⟨fourth, rest⟩ := List.cons.inj rest
    obtain ⟨fifth, -⟩ := List.cons.inj rest
    exact ⟨congrArg (fun outcome => [outcome]) first, second,
      congrArg₂ (fun outcome other => [outcome, other]) third fourth, fifth⟩
  obtain ⟨resumes, stays⟩ := receiveMany_resumes source 4
  obtain ⟨-, stuck, goesOn⟩ := resumes 1 _ before 6 4 stopped (Prod.ext outcomes rfl) (by simp)
    (Prod.ext refused rfl)
  have same := goesOn 10 (by decide) 2
  refine ⟨refused, stuck 2, same, later, ?_⟩
  · have room : ∀ limit', Request.setLimit limit' ∈ [.receive, .setLimit 2, .receive] →
        Frame.tagWidth ≤ limit' := by
      rintro limit' (_ | ⟨_, _ | ⟨_, _ | ⟨_, ⟨⟩⟩⟩⟩)
      exact Nat.le_refl 2
    exact (stays _ 1 _ (Prod.ext short rfl) _ room).1

end FrameInlet

end PeerWire
