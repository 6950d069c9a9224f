import PeerWire.Bytes

/-! # Partial operations

The operations that buffers, slices and machine numbers offer are partial: they are not defined
where too few bytes are left, where an index is past the end, or where a number leaves its range. A
reader written with them stands for a run over a buffer: it has a value or an error and leaves a
buffer, or else some operation in it was not defined. Each operation comes with the condition on
which it is defined. -/

namespace PeerWire

/-- A run over a buffer with errors of its own; `none` if an operation in it is not defined. -/
abbrev Raw (ε : Type) := ExceptT ε (StateT Bytes Option)

namespace Raw

variable {ε α β : Type} {buffer rest : Bytes} {count width left right : Nat}

/-- What a run gives and which bytes it leaves. -/
def perform (raw : Raw ε α) (buffer : Bytes) : Option (Except ε α × Bytes) :=
  raw.run.run buffer

/-! ## One part after the other -/

/-- Parts run on what the parts before them leave, up to the first that fails or is not defined:
`raw >>= next` is `raw` and then `next`. -/
theorem perform_bind (raw : Raw ε α) (next : α → Raw ε β) (buffer : Bytes) :
    (raw >>= next).perform buffer =
      match raw.perform buffer with
      | some (.ok value, rest) => (next value).perform rest
      | some (.error error, rest) => some (.error error, rest)
      | none => none := by
  show ((raw buffer).bind fun result => _) = _
  unfold perform ExceptT.run StateT.run
  cases raw buffer with
  | none => rfl
  | some result => obtain ⟨_ | _, _⟩ := result <;> rfl

/-- After a part that gives a value the next one runs on what is left. -/
theorem perform_bind_of_ok {raw : Raw ε α} {value : α} (next : α → Raw ε β)
    (run : raw.perform buffer = some (.ok value, rest)) :
    (raw >>= next).perform buffer = (next value).perform rest := by
  rw [perform_bind, run]

/-- A part that fails ends the whole. -/
theorem perform_bind_of_error {raw : Raw ε α} {error : ε} (next : α → Raw ε β)
    (run : raw.perform buffer = some (.error error, rest)) :
    (raw >>= next).perform buffer = some (.error error, rest) := by
  rw [perform_bind, run]

/-- Looking at the whole buffer by `get` leaves it. -/
theorem perform_get_bind (next : Bytes → Raw ε β) (buffer : Bytes) :
    (get >>= next).perform buffer = (next buffer).perform buffer := rfl

/-- Errors are converted where a part fails: `mapError convert`. -/
theorem perform_adapt {ε' : Type} (convert : ε → ε') (raw : Raw ε α) (buffer : Bytes) :
    Raw.perform (ExceptT.adapt convert raw : Raw ε' α) buffer =
      (raw.perform buffer).map fun result => (result.1.mapError convert, result.2) := by
  show (raw buffer).bind _ = _
  unfold perform ExceptT.run StateT.run
  cases raw buffer with
  | none => rfl
  | some result => obtain ⟨_ | _, _⟩ := result <;> rfl

/-- What has been computed without a buffer, `outcome`, leaves it. -/
theorem perform_ofExcept (outcome : Except ε α) (buffer : Bytes) :
    Raw.perform (MonadExcept.ofExcept outcome : Raw ε α) buffer = some (outcome, buffer) := by
  cases outcome <;> rfl

/-! ## Loops -/

section Loops

variable {σ : Type} [Nonempty α] {turn : σ → Raw ε (σ ⊕ α)} {state next : σ}

/-- A loop goes on where its turn leaves off, from `.inl next`. -/
theorem perform_repeatM_of_again
    (run : (turn state).perform buffer = some (.ok (.inl next), rest)) :
    (repeatM turn state).perform buffer = (repeatM turn next).perform rest := by
  rw [repeatM_eq_of_monadTail, repeatM.body, perform_bind_of_ok _ run]

/-- A loop ends with the turn that gives its value, `.inr value`. -/
theorem perform_repeatM_of_end {value : α}
    (run : (turn state).perform buffer = some (.ok (.inr value), rest)) :
    (repeatM turn state).perform buffer = some (.ok value, rest) := by
  rw [repeatM_eq_of_monadTail, repeatM.body, perform_bind_of_ok _ run]
  rfl

/-- A loop fails with its turn. -/
theorem perform_repeatM_of_error {error : ε}
    (run : (turn state).perform buffer = some (.error error, rest)) :
    (repeatM turn state).perform buffer = some (.error error, rest) := by
  rw [repeatM_eq_of_monadTail, repeatM.body]
  exact perform_bind_of_error _ run

end Loops

/-! ## Operations on buffers -/

/-- Drops `count` bytes off the front; not defined if there are fewer. -/
def advance (count : Nat) : Raw ε Unit := fun buffer =>
  if count ≤ buffer.length then some (.ok (), buffer.drop count) else none

/-- Bytes that are there can be dropped. -/
theorem perform_advance (enough : count ≤ buffer.length) :
    (advance count : Raw ε Unit).perform buffer = some (.ok (), buffer.drop count) :=
  if_pos enough

/-- Takes a number of `width` bytes off the front; not defined if there are fewer bytes. -/
def getUint (width : Nat) : Raw ε Nat := fun buffer =>
  if width ≤ buffer.length then some (.ok (ofBigEndian (buffer.take width)), buffer.drop width)
  else none

/-- A number can be taken where its bytes are there. -/
theorem perform_getUint (enough : width ≤ buffer.length) :
    (getUint width : Raw ε Nat).perform buffer =
      some (.ok (ofBigEndian (buffer.take width)), buffer.drop width) :=
  if_pos enough

/-- No two-byte number can be taken off one byte. -/
example : (getUint 2 : Raw ε Nat).perform [1] = none := rfl

/-- Fills an array of `count` bytes from the front; not defined if there are fewer bytes. -/
def copyToSlice (count : Nat) : Raw ε (Octets count) := fun buffer =>
  if enough : count ≤ buffer.length then
    some (.ok ⟨buffer.take count, List.length_take_of_le enough⟩, buffer.drop count)
  else none

/-- An array can be filled where its bytes are there. -/
theorem perform_copyToSlice (enough : count ≤ buffer.length) :
    (copyToSlice count : Raw ε (Octets count)).perform buffer =
      some (.ok ⟨buffer.take count, List.length_take_of_le enough⟩, buffer.drop count) :=
  dif_pos enough

/-- Splits `count` bytes off the front; not defined if there are fewer. -/
def splitTo (count : Nat) : Raw ε Bytes := fun buffer =>
  if count ≤ buffer.length then some (.ok (buffer.take count), buffer.drop count) else none

/-- Bytes that are there can be split off. -/
theorem perform_splitTo (enough : count ≤ buffer.length) :
    (splitTo count : Raw ε Bytes).perform buffer =
      some (.ok (buffer.take count), buffer.drop count) :=
  if_pos enough

/-- Looks at one byte; not defined past the end. -/
def index (place : Nat) : Raw ε UInt8 := fun buffer =>
  buffer[place]?.map fun byte => (.ok byte, buffer)

/-- A byte that is there can be looked at. -/
theorem perform_index {place : Nat} {byte : UInt8} (inside : buffer[place]? = some byte) :
    (index place : Raw ε UInt8).perform buffer = some (.ok byte, buffer) := by
  show buffer[place]?.map _ = _
  rw [inside]
  rfl

/-- Looks at the bytes from `start` up to `stop`; not defined if these are out of order or past the
end. -/
def slice (start stop : Nat) : Raw ε Bytes := fun buffer =>
  if start ≤ stop ∧ stop ≤ buffer.length then some (.ok ((buffer.take stop).drop start), buffer)
  else none

/-- Bytes that are there can be looked at. -/
theorem perform_slice {start stop : Nat} (ordered : start ≤ stop) (inside : stop ≤ buffer.length) :
    (slice start stop : Raw ε Bytes).perform buffer =
      some (.ok ((buffer.take stop).drop start), buffer) :=
  if_pos ⟨ordered, inside⟩

/-- Runs over a buffer of its own, whatever it leaves there. -/
def within (content : Bytes) (raw : Raw ε α) : Raw ε α := fun outer =>
  (raw.perform content).map fun result => (result.1, outer)

/-- A part on a buffer of its own leaves the outer buffer. -/
theorem perform_within {content left : Bytes} {raw : Raw ε α} {outcome : Except ε α}
    (run : raw.perform content = some (outcome, left)) (outer : Bytes) :
    (within content raw).perform outer = some (outcome, outer) := by
  show (raw.perform content).map _ = _
  rw [run]
  rfl

/-! ## Operations on sizes -/

/-- The number of sizes, `2 ^ 64`. -/
def sizeCount : Nat := 18446744073709551616

/-- A number that has been computed; not defined if it is not a size. -/
def size (number : Nat) : Raw ε Nat := fun buffer =>
  if number < sizeCount then some (.ok number, buffer) else none

/-- A number in range is a size: `size count = pure count`. -/
theorem size_eq_pure (small : count < sizeCount) : (size count : Raw ε Nat) = pure count := by
  funext buffer
  exact if_pos small

/-- The sum of two sizes. -/
def add (left right : Nat) : Raw ε Nat := size (left + right)

/-- The product of two sizes. -/
def mul (left right : Nat) : Raw ε Nat := size (left * right)

/-- The difference of two sizes; not defined below zero. -/
def sub (left right : Nat) : Raw ε Nat := fun buffer =>
  if right ≤ left then some (.ok (left - right), buffer) else none

/-- A difference that is not below zero is defined: `pure (left - right)`. -/
theorem sub_eq_pure (enough : right ≤ left) :
    (sub left right : Raw ε Nat) = pure (left - right) := by
  funext buffer
  exact if_pos enough

/-- The quotient of two sizes; not defined for a divisor of zero. -/
def div (left right : Nat) : Raw ε Nat := fun buffer =>
  if right = 0 then none else some (.ok (left / right), buffer)

/-- A quotient is defined for `right ≠ 0`. -/
theorem div_eq_pure (nonzero : right ≠ 0) : (div left right : Raw ε Nat) = pure (left / right) := by
  funext buffer
  exact if_neg nonzero

/-- The remainder of two sizes; not defined for a divisor of zero. -/
def rem (left right : Nat) : Raw ε Nat := fun buffer =>
  if right = 0 then none else some (.ok (left % right), buffer)

/-- So is a remainder. -/
theorem rem_eq_pure (nonzero : right ≠ 0) : (rem left right : Raw ε Nat) = pure (left % right) := by
  funext buffer
  exact if_neg nonzero

end Raw

end PeerWire
