import PeerWire.Proofs.Receiving

/-! # Skipping bodies that cannot be read

A call that skips is a number of calls that do not: it makes them up to the first whose outcome is
not a body that cannot be read, returns that outcome, and leaves what these calls leave. With a
limit it stops at the first body beyond the limit. Without one, the messages of calls that skip are
the messages of calls that do not, in their order (`MessageInlet.receiveValid_refines`). -/

namespace PeerWire

namespace MessageInlet

/-- Whether an outcome is that of a frame whose body cannot be read, `.decode tag cause`. -/
def isMalformed : Except LinkError Message → Bool
  | .error (.decode _ _) => true
  | _ => false

/-- The messages among some outcomes. -/
def messagesOf (outcomes : List (Except LinkError Message)) : List Message :=
  outcomes.flatMap fun outcome => outcome.toOption.toList

/-- Makes the same call a number of times. -/
def many {α : Type} (call : MessageInlet → α × MessageInlet) :
    Nat → MessageInlet → List α × MessageInlet
  | 0, inlet => ([], inlet)
  | count + 1, inlet =>
      match call inlet with
      | (answer, inlet) =>
          match many call count inlet with
          | (answers, inlet) => (answer :: answers, inlet)

variable {inlet middle next : MessageInlet} {last outcome : Except LinkError Message}
  {malformed outcomes : List (Except LinkError Message)} {skipped limit count : Nat}

/-! ## Calls one after the other -/

/-- As many answers as calls: `count`. -/
theorem length_many {α : Type} (call : MessageInlet → α × MessageInlet) (count : Nat)
    (inlet : MessageInlet) : (many call count inlet).1.length = count := by
  induction count generalizing inlet with
  | zero => rfl
  | succ count ih => rw [many, List.length_cons, ih]

/-- Reading `count` times is making the call `receive` that often. -/
theorem receiveMany_eq_many (count : Nat) (inlet : MessageInlet) :
    inlet.receiveMany count = many receive count inlet := by
  induction count generalizing inlet with
  | zero => rfl
  | succ count ih =>
      rw [receiveMany, many]
      simp only [ih]

/-- The first answers do not depend on how many `more` calls are made. -/
theorem take_many {α : Type} (call : MessageInlet → α × MessageInlet) (count more : Nat)
    (inlet : MessageInlet) :
    (many call (count + more) inlet).1.take count = (many call count inlet).1 := by
  induction count generalizing inlet with
  | zero => rw [List.take_zero, many]
  | succ count ih => rw [Nat.add_right_comm, many, many, List.take_succ_cons, ih]

/-- Reading several times begins with reading once. -/
theorem exists_of_receiveMany_succ
    (run : inlet.receiveMany (count + 1) = (outcome :: outcomes, next)) :
    ∃ middle, inlet.receive = (outcome, middle) ∧
      middle.receiveMany count = (outcomes, next) := by
  rw [receiveMany] at run
  obtain ⟨answers, rfl⟩ := Prod.mk.inj run
  obtain ⟨rfl, rfl⟩ := List.cons.inj answers
  exact ⟨inlet.receive.2, rfl, rfl⟩

/-- Reading `count` times and then `more` times. -/
theorem receiveMany_add (more : Nat) (run : inlet.receiveMany count = (outcomes, middle)) :
    inlet.receiveMany (count + more) =
      (outcomes ++ (middle.receiveMany more).1, (middle.receiveMany more).2) := by
  induction count generalizing inlet outcomes with
  | zero =>
      obtain ⟨rfl, rfl⟩ := Prod.mk.inj run
      rw [Nat.zero_add]
      rfl
  | succ count ih =>
      obtain ⟨rest, rfl⟩ : ∃ rest, outcomes = inlet.receive.1 :: rest :=
        ⟨_, (congrArg Prod.fst run).symm⟩
      obtain ⟨following, first, later⟩ := exists_of_receiveMany_succ run
      rw [Nat.add_right_comm, receiveMany_succ first (ih later), List.cons_append]

/-- No call changes how many bodies may be skipped: `next.skipLimit = inlet.skipLimit`. -/
theorem skipLimit_of_receive (received : inlet.receive = (outcome, next)) :
    next.skipLimit = inlet.skipLimit := by
  unfold receive at received
  split at received
  · cases received
    rfl
  · split at received <;> cases received <;> rfl

/-- Nor does any number of calls. -/
theorem skipLimit_of_receiveMany (run : inlet.receiveMany count = (outcomes, next)) :
    next.skipLimit = inlet.skipLimit := by
  induction count generalizing inlet outcomes with
  | zero =>
      cases run
      rfl
  | succ count ih =>
      obtain ⟨rest, rfl⟩ : ∃ rest, outcomes = inlet.receive.1 :: rest :=
        ⟨_, (congrArg Prod.fst run).symm⟩
      obtain ⟨middle, first, later⟩ := exists_of_receiveMany_succ run
      rw [ih later, skipLimit_of_receive first]

/-! ## One call that skips -/

/-- What skipping makes of an outcome: one that `isMalformed` is counted, and any other returned. -/
theorem receiveSkipping_eq (received : inlet.receive = (outcome, next)) :
    inlet.receiveSkipping skipped =
      if isMalformed outcome then
        match inlet.skipLimit with
        | none => next.receiveSkipping (skipped + 1)
        | some limit =>
            if skipped + 1 > limit then (.error (.skippedTooMany (skipped + 1)), next)
            else next.receiveSkipping (skipped + 1)
      else (outcome, next) := by
  rw [receiveSkipping, ← skipLimit_of_receive received]
  split
  · rename_i tag cause following read
    rw [received] at read
    obtain ⟨rfl, rfl⟩ := Prod.mk.inj read
    rfl
  · rename_i answer following other read
    rw [received] at read
    obtain ⟨rfl, rfl⟩ := Prod.mk.inj read
    rcases outcome with (_ | ⟨tag, cause⟩ | _) | _
    · rfl
    · exact absurd rfl (other tag cause)
    · rfl
    · rfl

/-- An outcome that is not a body that cannot be read is returned. -/
theorem receiveSkipping_of_valid (received : inlet.receive = (outcome, next))
    (valid : isMalformed outcome = false) : inlet.receiveSkipping skipped = (outcome, next) := by
  rw [receiveSkipping_eq received, valid]
  rfl

/-- A body that cannot be read is skipped while the limit allows, `skipped < limit`. -/
theorem receiveSkipping_of_malformed (received : inlet.receive = (outcome, next))
    (bad : isMalformed outcome) (patient : ∀ limit ∈ inlet.skipLimit, skipped < limit) :
    inlet.receiveSkipping skipped = next.receiveSkipping (skipped + 1) := by
  rw [receiveSkipping_eq received, if_pos bad]
  cases limited : inlet.skipLimit with
  | none => rfl
  | some limit => exact if_neg (Nat.not_lt_of_le (patient limit limited))

/-- With the limit reached, the next body that cannot be read is one too many: `skippedTooMany
(skipped + 1)`. -/
theorem receiveSkipping_of_spent (received : inlet.receive = (outcome, next))
    (bad : isMalformed outcome) (limited : inlet.skipLimit = some skipped) :
    inlet.receiveSkipping skipped = (.error (.skippedTooMany (skipped + 1)), next) := by
  rw [receiveSkipping_eq received, if_pos bad, limited]
  exact if_pos (Nat.lt_succ_self skipped)

/-- Bodies that cannot be read, no more than the limit allows, are skipped, and `last`, the outcome
after them, is returned. -/
theorem receiveSkipping_of_run
    (run : inlet.receiveMany (malformed.length + 1) = (malformed ++ [last], next))
    (bad : ∀ outcome ∈ malformed, isMalformed outcome) (valid : isMalformed last = false)
    (patient : ∀ limit ∈ inlet.skipLimit, skipped + malformed.length ≤ limit) :
    inlet.receiveSkipping skipped = (last, next) := by
  -- By the bodies still to be skipped; those skipped before count towards the limit as well.
  induction malformed generalizing inlet skipped with
  | nil =>
      obtain ⟨middle, received, rest⟩ := exists_of_receiveMany_succ run
      cases rest
      exact receiveSkipping_of_valid received valid
  | cons first malformed ih =>
      obtain ⟨middle, received, rest⟩ := exists_of_receiveMany_succ run
      rw [List.length_cons] at patient
      rw [receiveSkipping_of_malformed received (bad first List.mem_cons_self) fun limit found => by
        have := patient limit found
        omega]
      refine ih rest (fun outcome member => bad outcome (List.mem_cons_of_mem _ member)) ?_
      intro limit found
      rw [skipLimit_of_receive received] at found
      have := patient limit found
      omega

/-- One body more than the limit allows, `limit + 1` of them, ends the call there. -/
theorem receiveSkipping_of_too_many (limited : inlet.skipLimit = some limit)
    (run : inlet.receiveMany malformed.length = (malformed, next))
    (bad : ∀ outcome ∈ malformed, isMalformed outcome) (room : skipped ≤ limit)
    (many : skipped + malformed.length = limit + 1) :
    inlet.receiveSkipping skipped = (.error (.skippedTooMany (limit + 1)), next) := by
  induction malformed generalizing inlet skipped with
  | nil =>
      rw [List.length_nil] at many
      omega
  | cons first malformed ih =>
      obtain ⟨middle, received, rest⟩ := exists_of_receiveMany_succ run
      have unread := bad first List.mem_cons_self
      rw [List.length_cons] at many
      rcases Nat.lt_or_eq_of_le room with more | rfl
      · rw [receiveSkipping_of_malformed received unread fun limit' found => by
          rw [limited] at found
          cases found
          exact more]
        rw [← skipLimit_of_receive received] at limited
        exact ih limited rest (fun outcome member => bad outcome (List.mem_cons_of_mem _ member))
          more (by omega)
      · -- The limit is reached, so that this body is the last one read.
        obtain rfl : malformed = [] := List.eq_nil_of_length_eq_zero (by omega)
        cases rest
        exact receiveSkipping_of_spent received unread limited

/-- **Bodies that cannot be read come to an end**, since each of them takes bytes. -/
theorem exists_run (inlet : MessageInlet) :
    ∃ malformed last next,
      inlet.receiveMany (malformed.length + 1) = (malformed ++ [last], next) ∧
        (∀ outcome ∈ malformed, isMalformed outcome) ∧ isMalformed last = false := by
  induction weighs : inlet.weight using Nat.strongRecOn generalizing inlet with
  | ind size ih =>
    obtain ⟨outcome, middle, received⟩ : ∃ outcome middle, inlet.receive = (outcome, middle) :=
      ⟨_, _, rfl⟩
    cases bad : isMalformed outcome with
    | false => exact ⟨[], outcome, middle, receiveMany_succ received rfl, by simp, bad⟩
    | true =>
        have fewer : middle.weight < size := by
          rw [← weighs]
          refine weight_of_receive received ?_
          rintro cause rfl
          cases bad
        obtain ⟨malformed, last, next, run, each, valid⟩ := ih _ fewer middle rfl
        refine ⟨outcome :: malformed, last, next, receiveMany_succ received run, ?_, valid⟩
        rintro other (_ | ⟨_, member⟩)
        · exact bad
        · exact each other member

/-! ## Calls that skip, one after the other -/

/-- What is left out when bodies that cannot be read are skipped holds no message. -/
theorem messagesOf_filter (outcomes : List (Except LinkError Message)) :
    messagesOf (outcomes.filter fun outcome => !isMalformed outcome) = messagesOf outcomes := by
  induction outcomes with
  | nil => rfl
  | cons outcome outcomes ih =>
      match outcome with
      | .error (.decode _ _) => exact ih
      | .ok _ | .error (.frame _) | .error (.skippedTooMany _) =>
          exact congrArg (_ ++ ·) ih

/-- **Without a limit, calls that skip give what calls that do not give**, less the outcomes that
are `isMalformed`, and leave what these leave. -/
theorem exists_many_receiveValid (unlimited : inlet.skipLimit = none) (count : Nat) :
    ∃ calls outcomes next, count ≤ calls ∧ inlet.receiveMany calls = (outcomes, next) ∧
      many receiveValid count inlet =
        (outcomes.filter fun outcome => !isMalformed outcome, next) := by
  induction count generalizing inlet with
  | zero => exact ⟨0, [], inlet, Nat.le_refl 0, rfl, rfl⟩
  | succ count ih =>
      -- A call that skips is a run of calls, and the runs come one after the other.
      obtain ⟨malformed, last, middle, run, bad, valid⟩ := inlet.exists_run
      have first : inlet.receiveValid = (last, middle) :=
        receiveSkipping_of_run run bad valid (by simp [unlimited])
      have unlimited' : middle.skipLimit = none := by
        rw [skipLimit_of_receiveMany run, unlimited]
      obtain ⟨calls, outcomes, next, enough, later, skipping⟩ := ih unlimited'
      refine ⟨malformed.length + 1 + calls, malformed ++ [last] ++ outcomes, next, by omega, ?_, ?_⟩
      · rw [receiveMany_add calls run, later]
      · have none : malformed.filter (fun outcome => !isMalformed outcome) = [] := by
          rw [List.filter_eq_nil_iff]
          intro outcome member
          simp [bad outcome member]
        rw [many, first]
        simp only [skipping, List.filter_append, none, List.nil_append, List.filter_cons, valid,
          List.filter_nil]
        rfl

/-- **Every call that does not skip is covered**: what any number of `calls` give, less the bodies
that cannot be read, is given by some number of calls that skip. -/
theorem many_receiveValid_of_receiveMany (unlimited : inlet.skipLimit = none) (calls : Nat) :
    ∃ count, count ≤ calls ∧ (many receiveValid count inlet).1 =
      (inlet.receiveMany calls).1.filter fun outcome => !isMalformed outcome := by
  obtain ⟨longer, outcomes, next, enough, run, skipping⟩ :=
    exists_many_receiveValid unlimited calls
  obtain ⟨more, rfl⟩ := Nat.exists_eq_add_of_le enough
  -- What the first calls give begins what all of them give, and so it does with bodies left out.
  have front : (inlet.receiveMany calls).1 <+: outcomes := by
    rw [← take_receiveMany calls more, run]
    exact List.take_prefix _ _
  have kept := front.filter fun outcome => !isMalformed outcome
  have whole : (many receiveValid calls inlet).1 =
      outcomes.filter fun outcome => !isMalformed outcome := by
    rw [skipping]
  have fewer := kept.length_le
  rw [← whole, length_many] at fewer
  obtain ⟨others, split⟩ := Nat.exists_eq_add_of_le fewer
  refine ⟨_, fewer, ?_⟩
  rw [← take_many receiveValid _ others, ← split, whole]
  exact (List.prefix_iff_eq_take.1 kept).symm

/-- **A call that skips is the calls that it makes.** The bodies that cannot be read come to an end.
When there are no more of them than the limit allows, a call that skips returns the outcome after
them and leaves what these calls leave, `(last, next)`; when there are more, it gives up by
`skippedTooMany (limit + 1)` at the first one too many and leaves what the calls up to that one
leave. Without a limit, what calls that skip leave is left by some calls that do not, with the same
messages; and the messages of any calls that do not skip are those of some calls that do. -/
theorem receiveValid_refines (inlet : MessageInlet) :
    (∃ malformed last next,
      inlet.receiveMany (malformed.length + 1) = (malformed ++ [last], next) ∧
        (∀ outcome ∈ malformed, isMalformed outcome) ∧ isMalformed last = false) ∧
    (∀ malformed last next,
      inlet.receiveMany (malformed.length + 1) = (malformed ++ [last], next) →
        (∀ outcome ∈ malformed, isMalformed outcome) → isMalformed last = false →
        (∀ limit ∈ inlet.skipLimit, malformed.length ≤ limit) →
        inlet.receiveValid = (last, next)) ∧
    (∀ limit malformed next, inlet.skipLimit = some limit →
      inlet.receiveMany (limit + 1) = (malformed, next) →
        (∀ outcome ∈ malformed, isMalformed outcome) →
        inlet.receiveValid = (.error (.skippedTooMany (limit + 1)), next)) ∧
    (inlet.skipLimit = none →
      (∀ count, ∃ calls, count ≤ calls ∧
        (many receiveValid count inlet).2 = (inlet.receiveMany calls).2 ∧
        messagesOf (many receiveValid count inlet).1 = messagesOf (inlet.receiveMany calls).1) ∧
      ∀ calls, ∃ count, count ≤ calls ∧
        messagesOf (inlet.receiveMany calls).1 =
          messagesOf (many receiveValid count inlet).1) := by
  refine ⟨inlet.exists_run, ?_, ?_, fun unlimited => ⟨fun count => ?_, fun calls => ?_⟩⟩
  · intro malformed last next run bad valid patient
    refine receiveSkipping_of_run run bad valid fun limit found => ?_
    rw [Nat.zero_add]
    exact patient limit found
  · intro limit malformed next limited run bad
    have number : malformed.length = limit + 1 := by
      have each := length_many receive (limit + 1) inlet
      rw [← receiveMany_eq_many, run] at each
      exact each
    rw [← number] at run
    exact receiveSkipping_of_too_many limited run bad (Nat.zero_le limit) (by omega)
  · obtain ⟨calls, outcomes, next, enough, run, skipping⟩ :=
      exists_many_receiveValid unlimited count
    refine ⟨calls, enough, ?_, ?_⟩
    · rw [run, skipping]
    · rw [run, skipping, messagesOf_filter]
  · obtain ⟨count, fewer, same⟩ := many_receiveValid_of_receiveMany unlimited calls
    refine ⟨count, fewer, ?_⟩
    rw [same, messagesOf_filter]

/-- Two fee updates cut short and a ping arrive byte by byte. With a limit of two the ping is
returned, after all three frames; with a limit of one the second update is one too many, and the
ping stays unread. -/
theorem receiveValid_refines_fee_updates :
    let stream : Bytes := [⟨134, [0]⟩, ⟨134, []⟩, ⟨18, [0, 5, 0, 0]⟩].flatMap Frame.toBytes
    let source : Source := ⟨stream.map fun byte => .data [byte], 0⟩
    let cut (available : Nat) : Except LinkError Message :=
      .error (.decode 134 (.field "update_fee" "channel_id" 0 (.truncated 32 available)))
    let ping : Message := .known .ping (5, [], ()) []
    let inlet := ofSource source 10
    ((inlet (some 2)).receiveMany 3).1 = [cut 1, cut 0] ++ [.ok ping] ∧
      (inlet (some 2)).receiveValid = (.ok ping, ((inlet (some 2)).receiveMany 3).2) ∧
      ((inlet (some 1)).receiveMany 2).1 = [cut 1, cut 0] ∧
      (inlet (some 1)).receiveValid =
        (.error (.skippedTooMany 2), ((inlet (some 1)).receiveMany 2).2) ∧
      ∃ count, count ≤ 3 ∧ messagesOf (many receiveValid count (inlet none)).1 = [ping] := by
  intro stream source cut ping inlet
  have three (skipLimit : Option Nat) :
      ((inlet skipLimit).receiveMany 3).1 = [cut 1, cut 0] ++ [.ok ping] := by
    cbv
  have two : ((inlet (some 1)).receiveMany 2).1 = [cut 1, cut 0] := by
    cbv
  have bad : ∀ outcome ∈ [cut 1, cut 0], isMalformed outcome := by
    rintro outcome (_ | ⟨_, _ | ⟨_, ⟨⟩⟩⟩) <;> rfl
  refine ⟨three _, ?_, two, ?_, ?_⟩
  · refine (receiveValid_refines (inlet (some 2))).2.1 [cut 1, cut 0] (.ok ping) _
      (Prod.ext (three _) rfl) bad rfl ?_
    rintro limit ⟨⟩
    exact Nat.le_refl 2
  · exact (receiveValid_refines (inlet (some 1))).2.2.1 1 [cut 1, cut 0] _ rfl
      (Prod.ext two rfl) bad
  · obtain ⟨count, fewer, same⟩ := ((receiveValid_refines (inlet none)).2.2.2 rfl).2 3
    refine ⟨count, fewer, ?_⟩
    rw [← same, three]
    rfl

end MessageInlet

end PeerWire
