import PeerWire.Proofs.Framing

/-! # Frames in a byte string

The decoder that looks at a whole byte string and the one that looks at a growing buffer agree
(`Frame.read_eq`): where one takes a frame so does the other, they refuse the same lengths, and one
waits exactly where the other says what is missing. What the buffer decoder says does not change
when bytes arrive, unless it was waiting. `Frame.readAll` reads frame after frame off a byte
string. -/

namespace PeerWire

namespace Frame

variable {buffer rest more : Bytes} {limit : Nat} {frame : Frame} {error : FrameError}

/-! ## Buffers that grow -/

/-- A length is refused by `checkDeclared` as soon as it can be read, whatever follows it. -/
theorem takeFrom_eq_error_iff :
    takeFrom buffer limit = .error error ↔
      ∃ declared, declaredBy? buffer = some declared ∧
        checkDeclared declared limit = .error error := by
  unfold takeFrom
  split
  · rename_i none
    simp [none]
  · rename_i declared found
    split
    · rename_i cause refused
      simp [found, refused]
    · rename_i checked
      split
      · simp [found, checked]
      · simp [found, checked]

/-- More bytes do not change a length that can be read. -/
theorem declaredBy?_append (long : 2 ≤ buffer.length) :
    declaredBy? (buffer ++ more) = declaredBy? buffer := by
  match buffer, long with
  | high :: low :: rest, _ => rfl

/-- A length that can be read takes two bytes: `2 ≤ buffer.length`. -/
theorem two_le_length_of_declaredBy? {declared : Nat} (found : declaredBy? buffer = some declared) :
    2 ≤ buffer.length := by
  obtain ⟨size, rest, spelled, rfl⟩ := declaredBy?_eq_some_iff.1 found
  rw [List.length_append, spelled.1]
  exact Nat.le_add_right 2 _

/-- A frame that is taken is taken all the same when more bytes have arrived, and they are left with
the others: `rest ++ more`. -/
theorem takeFrom_append_of_some (taken : takeFrom buffer limit = .ok (some (frame, rest)))
    (more : Bytes) : takeFrom (buffer ++ more) limit = .ok (some (frame, rest ++ more)) := by
  obtain ⟨rfl, fits⟩ := takeFrom_eq_some_iff.1 taken
  exact takeFrom_eq_some_iff.2 ⟨List.append_assoc _ _ _, fits⟩

/-- With the length there, it is refused now exactly if it is refused later. -/
theorem takeFrom_append_eq_error_iff (long : 2 ≤ buffer.length) :
    takeFrom (buffer ++ more) limit = .error error ↔ takeFrom buffer limit = .error error := by
  rw [takeFrom_eq_error_iff, takeFrom_eq_error_iff, declaredBy?_append long]

/-- A refused length stays refused when more bytes arrive. -/
theorem takeFrom_append_of_error (refused : takeFrom buffer limit = .error error) (more : Bytes) :
    takeFrom (buffer ++ more) limit = .error error := by
  obtain ⟨declared, found, -⟩ := takeFrom_eq_error_iff.1 refused
  exact (takeFrom_append_eq_error_iff (two_le_length_of_declaredBy? found)).2 refused

/-! ## Two decoders -/

/-- The decoder of whole byte strings finds the frame in front. -/
theorem read_of_takeFrom (taken : takeFrom buffer limit = .ok (some (frame, rest))) :
    read buffer limit = .ok (frame, frame.wireLength) := by
  obtain ⟨rfl, fits⟩ := takeFrom_eq_some_iff.1 taken
  obtain ⟨two, declared⟩ := spells_length fits
  obtain ⟨high, low, length⟩ := List.length_eq_two.1 two
  have content : frame.toBytes ++ rest =
      high :: low :: (bigEndian 2 frame.tag.toNat ++ frame.body ++ rest) := by
    rw [toBytes, length]
    simp
  have wide : (bigEndian 2 frame.tag.toNat ++ frame.body).length = frame.declaredLength := by
    rw [List.length_append, length_bigEndian]
    rfl
  have checked : checkDeclared frame.declaredLength limit = .ok () :=
    checkDeclared_eq_ok_iff.2 ⟨fits.2, Nat.le_add_right _ _⟩
  rw [length] at declared
  rw [content, read, declared]
  simp only [checked, List.take_left' wide, wide, if_true]
  -- What is in front is the tag, which is read back from its two bytes.
  have front : (bigEndian 2 frame.tag.toNat ++ frame.body).take tagWidth =
      bigEndian 2 frame.tag.toNat :=
    List.take_left' (length_bigEndian 2 _)
  have back : (bigEndian 2 frame.tag.toNat ++ frame.body).drop tagWidth = frame.body :=
    List.drop_left' (length_bigEndian 2 _)
  rw [front, back, (spells_bigEndian frame.tag.toNat_lt).2, UInt16.ofNat_toNat]
  rfl

/-- A tag and a body are read from `content` when it has as many bytes as declared. -/
theorem contentDecoder_of_le_length {declared : Nat} {content : Bytes} (room : tagWidth ≤ declared)
    (enough : declared ≤ content.length) :
    ∃ frame rest, contentDecoder declared content = .ok frame rest := by
  have two : tagWidth = 2 := rfl
  match content with
  | [] | [_] =>
      simp only [List.length_cons, List.length_nil] at enough
      omega
  | high :: low :: tail =>
      have long : declared - tagWidth ≤ tail.length := by
        simp only [List.length_cons] at enough
        omega
      have body := Decoder.take_of_le_length long
      refine ⟨⟨.ofNat (ofBigEndian [high, low]), tail.take (declared - tagWidth)⟩,
        tail.drop (declared - tagWidth), ?_⟩
      rw [contentDecoder, Decoder.bind_of_ok (Decoder.u16_cons_cons high low tail),
        Decoder.bind_of_ok body]
      rfl

/-- **The decoders agree**: `read` says what `takeFrom` says, and `truncated` where that waits. -/
theorem read_eq (buffer : Bytes) (limit : Nat) :
    read buffer limit =
      match takeFrom buffer limit with
      | .ok (some (frame, _)) => .ok (frame, frame.wireLength)
      | .ok none => .error (.truncated (expectedSize buffer) buffer.length)
      | .error error => .error error := by
  match found : takeFrom buffer limit with
  | .ok (some (frame, rest)) => exact read_of_takeFrom found
  | .error error =>
      obtain ⟨declared, length, refused⟩ := takeFrom_eq_error_iff.1 found
      match buffer, length with
      | high :: low :: rest, length =>
          obtain rfl : ofBigEndian [high, low] = declared := Option.some.inj length
          rw [read, refused]
  | .ok none =>
      match buffer with
      | [] => rfl
      | [_] => rfl
      | high :: low :: rest =>
          -- The length is not refused, so that it must be the content that is not all there.
          rw [takeFrom] at found
          simp only [declaredBy?] at found
          generalize sized : ofBigEndian [high, low] = declared at found
          split at found
          · cases found
          · rename_i checked
            obtain ⟨-, room⟩ := checkDeclared_eq_ok_iff.1 checked
            have lacks : ¬(rest.take declared).length = declared := by
              intro whole
              rw [List.length_take] at whole
              obtain ⟨frame, left, run⟩ := contentDecoder_of_le_length room
                (show declared ≤ rest.length by omega)
              rw [show (high :: low :: rest).drop lengthWidth = rest from rfl, run] at found
              cases found
            rw [read, sized]
            simp only [checked, if_neg lacks, expectedSize, declaredBy?, sized]

/-- A frame that is read has a wire form in front, and what follows, `buffer.drop size`, is what the
buffer decoder leaves. -/
theorem read_eq_ok_iff {size : Nat} :
    read buffer limit = .ok (frame, size) ↔
      takeFrom buffer limit = .ok (some (frame, buffer.drop size)) ∧ size = frame.wireLength := by
  constructor
  · intro run
    rw [read_eq] at run
    split at run
    · rename_i found rest taken
      cases run
      obtain ⟨whole, -⟩ := takeFrom_eq_some_iff.1 taken
      have left : buffer.drop frame.wireLength = rest := by
        rw [whole]
        exact List.drop_left' frame.length_toBytes
      exact ⟨by rw [left]; exact taken, rfl⟩
    · cases run
    · cases run
  · rintro ⟨taken, rfl⟩
    exact read_of_takeFrom taken

/-- The errors that refuse a length, `oversize` and `tooShort`. -/
inductive Refusal : FrameError → Prop where
  /-- The length is over the limit. -/
  | oversize (size limit : Nat) : Refusal (.oversize size limit)
  /-- The length has no room for a tag. -/
  | tooShort (length : Nat) : Refusal (.tooShort length)

/-- The buffer decoder fails only to refuse a length, and does so where the other does. -/
theorem takeFrom_eq_error_iff_read :
    takeFrom buffer limit = .error error ↔ read buffer limit = .error error ∧ Refusal error := by
  constructor
  · intro refused
    refine ⟨by rw [read_eq, refused], ?_⟩
    obtain ⟨declared, -, check⟩ := takeFrom_eq_error_iff.1 refused
    unfold checkDeclared at check
    split at check
    · cases check
      exact .oversize _ _
    · split at check
      · cases check
        exact .tooShort _
      · cases check
  · rintro ⟨run, refusal⟩
    rw [read_eq] at run
    split at run
    · cases run
    · cases run
      cases refusal
    · rename_i cause refused
      cases run
      exact refused

/-! ## Frame after frame -/

/-- A frame that is read takes some of the bytes: `(buffer.drop size).length < buffer.length`. -/
theorem length_drop_of_read {size : Nat} (run : read buffer limit = .ok (frame, size)) :
    (buffer.drop size).length < buffer.length := by
  obtain ⟨taken, -⟩ := read_eq_ok_iff.1 run
  have whole := congrArg List.length (eq_of_takeFrom taken)
  rw [List.length_append, length_toBytes, wireLength, lengthWidth] at whole
  omega

/-- The frames in front of a byte string, read one after the other, and the bytes that are left when
no more can be read. -/
def readAll (limit : Nat) (bytes : Bytes) : List Frame × Bytes :=
  match _run : read bytes limit with
  | .error _ => ([], bytes)
  | .ok (frame, size) =>
      match readAll limit (bytes.drop size) with
      | (frames, left) => (frame :: frames, left)
  termination_by bytes.length
  decreasing_by exact length_drop_of_read _run

/-- A frame in front is the first of all. -/
theorem readAll_of_some (taken : takeFrom buffer limit = .ok (some (frame, rest))) :
    readAll limit buffer = (frame :: (readAll limit rest).1, (readAll limit rest).2) := by
  have run := read_of_takeFrom taken
  obtain ⟨taken', -⟩ := read_eq_ok_iff.1 run
  have left : buffer.drop frame.wireLength = rest := by
    rw [taken] at taken'
    simpa using taken'.symm
  rw [readAll]
  split
  · rename_i refused
    rw [run] at refused
    cases refused
  · rename_i found size run'
    rw [run] at run'
    obtain ⟨rfl, rfl⟩ := Prod.mk.inj (Except.ok.inj run')
    rw [left]

/-- Without a frame in front there are none: `readAll limit buffer = ([], buffer)`. -/
theorem readAll_of_not_taken
    (none : ∀ frame rest, takeFrom buffer limit ≠ .ok (some (frame, rest))) :
    readAll limit buffer = ([], buffer) := by
  rw [readAll]
  split
  · rfl
  · rename_i frame size run
    exact absurd (read_eq_ok_iff.1 run).1 (none _ _)

/-- No frame is in front of a buffer that still waits for bytes. -/
theorem readAll_of_none (waits : takeFrom buffer limit = .ok none) :
    readAll limit buffer = ([], buffer) :=
  readAll_of_not_taken fun frame rest taken => by
    rw [waits] at taken
    cases taken

/-- No frame is in front of a length that is refused. -/
theorem readAll_of_error (refused : takeFrom buffer limit = .error error) :
    readAll limit buffer = ([], buffer) :=
  readAll_of_not_taken fun frame rest taken => by
    rw [refused] at taken
    cases taken

/-- Where no frame is in front, everything is left. -/
theorem readAll_eq_of_fst_eq_nil (none : (readAll limit buffer).1 = []) :
    readAll limit buffer = ([], buffer) := by
  rw [readAll] at none ⊢
  split at none
  · rfl
  · cases none

/-- The first of all frames stands in front, and the others are those of what follows it. -/
theorem exists_of_readAll_eq_cons {frames : List Frame} {left : Bytes}
    (all : readAll limit buffer = (frame :: frames, left)) :
    ∃ later, buffer = frame.toBytes ++ later ∧ frame.Fits limit ∧
      readAll limit later = (frames, left) := by
  rw [readAll] at all
  split at all
  · cases all
  · rename_i found size run
    cases all
    obtain ⟨whole, fits⟩ := takeFrom_eq_some_iff.1 (read_eq_ok_iff.1 run).1
    exact ⟨buffer.drop size, whole, fits, rfl⟩

/-- The frames of `buffer ++ more` are those of `buffer`, and then those of what is left of it and
`more`. -/
theorem readAll_append (buffer more : Bytes) :
    readAll limit (buffer ++ more) =
      ((readAll limit buffer).1 ++ (readAll limit ((readAll limit buffer).2 ++ more)).1,
        (readAll limit ((readAll limit buffer).2 ++ more)).2) := by
  fun_induction readAll limit buffer with
  | case1 buffer error run => rfl
  | case2 buffer frame size run frames left all ih =>
      have taken := takeFrom_append_of_some (read_eq_ok_iff.1 run).1 more
      rw [readAll_of_some taken, ih, all]
      rfl

/-- Frames that fit, one after the other, are all read: `readAll limit (frames.flatMap toBytes) =
(frames, [])`. -/
theorem readAll_flatMap_toBytes {frames : List Frame}
    (fits : ∀ frame ∈ frames, frame.Fits limit) :
    readAll limit (frames.flatMap toBytes) = (frames, []) := by
  induction frames with
  | nil => exact readAll_of_none rfl
  | cons frame frames ih =>
      have taken : takeFrom ((frame :: frames).flatMap toBytes) limit =
          .ok (some (frame, frames.flatMap toBytes)) :=
        takeFrom_eq_some_iff.2 ⟨List.flatMap_cons, fits frame List.mem_cons_self⟩
      rw [readAll_of_some taken, ih fun other member => fits other (List.mem_cons_of_mem _ member)]

/-- A byte string is the frames that are read off it, all of which fit, and what is left:
`frames.flatMap toBytes ++ left`. -/
theorem eq_flatMap_append_of_readAll {frames : List Frame} {left : Bytes}
    (all : readAll limit buffer = (frames, left)) :
    buffer = frames.flatMap toBytes ++ left ∧ ∀ frame ∈ frames, frame.Fits limit := by
  induction frames generalizing buffer with
  | nil =>
      have same := readAll_eq_of_fst_eq_nil (congrArg Prod.fst all)
      rw [all] at same
      exact ⟨(congrArg Prod.snd same).symm, by simp⟩
  | cons frame frames ih =>
      obtain ⟨later, rfl, first, rest⟩ := exists_of_readAll_eq_cons all
      obtain ⟨rfl, others⟩ := ih rest
      refine ⟨by rw [List.flatMap_cons, List.append_assoc], ?_⟩
      rintro other (_ | ⟨_, member⟩)
      · exact first
      · exact others other member

/-- What is left by `readAll` is not read as a frame. -/
theorem exists_read_readAll_eq_error (limit : Nat) (buffer : Bytes) :
    ∃ error, read (readAll limit buffer).2 limit = .error error := by
  fun_induction readAll limit buffer with
  | case1 buffer error run => exact ⟨error, run⟩
  | case2 buffer frame size run frames left all ih =>
      rw [all] at ih
      exact ih

/-- How reading frame after frame ends: with nothing left, which is `none`, or with the error of
what is left. -/
inductive Ending (limit : Nat) : Bytes → Option FrameError → Prop where
  /-- Nothing is left. -/
  | clean : Ending limit [] none
  /-- What is left is not read as a frame. -/
  | broken {left : Bytes} {error : FrameError} :
      left ≠ [] → read left limit = .error error → Ending limit left (some error)

/-- There is one way to end. -/
theorem Ending.unique {left : Bytes} {ending ending' : Option FrameError}
    (ends : Ending limit left ending) (ends' : Ending limit left ending') : ending = ending' := by
  cases ends with
  | clean =>
      cases ends' with
      | clean => rfl
      | broken nonempty _ => exact absurd rfl nonempty
  | broken nonempty run =>
      cases ends' with
      | clean => exact absurd rfl nonempty
      | broken _ run' =>
          rw [run] at run'
          cases run'
          rfl

/-- It ends where no frame is in front. -/
theorem Ending.not_taken {left rest : Bytes} {ending : Option FrameError}
    (ends : Ending limit left ending) : takeFrom left limit ≠ .ok (some (frame, rest)) := by
  intro taken
  cases ends with
  | clean => cases taken
  | broken _ run =>
      rw [read_of_takeFrom taken] at run
      cases run

/-- What is left is never reported as `closed`. -/
theorem Ending.ne_closed {left : Bytes} (ends : Ending limit left (some error)) :
    error ≠ .closed := by
  rintro rfl
  cases ends with
  | broken _ run =>
      rw [read_eq] at run
      split at run
      · cases run
      · cases run
      · rename_i cause refused
        cases run
        cases (takeFrom_eq_error_iff_read.1 refused).2

/-- It ends at a length that `takeFrom` refuses. -/
theorem Ending.of_error {left : Bytes} (refused : takeFrom left limit = .error error) :
    Ending limit left (some error) := by
  refine .broken ?_ (takeFrom_eq_error_iff_read.1 refused).1
  rintro rfl
  cases refused

/-- Reading frame after frame ends in some way. -/
theorem exists_ending (limit : Nat) (buffer : Bytes) :
    ∃ ending, Ending limit (readAll limit buffer).2 ending := by
  by_cases nothing : (readAll limit buffer).2 = []
  · rw [nothing]
    exact ⟨none, .clean⟩
  · obtain ⟨error, run⟩ := exists_read_readAll_eq_error limit buffer
    exact ⟨some error, .broken nothing run⟩

end Frame

end PeerWire
