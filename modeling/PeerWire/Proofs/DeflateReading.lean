import PeerWire.Proofs.BitReading
import PeerWire.Proofs.CodeWords

/-! # Reading the format

A read *takes* a format when it succeeds exactly on its words: `read reader = .ok (value, next)`
just where the bits of `reader` are a word of `value` and then those of `next` (`Takes`). Reads one
after the other take the words one after the other, so that each read of the inflater takes its part
of the format. -/

namespace PeerWire.Deflate

variable {α β : Type}

/-! ## Readers and their bits -/

/-- A byte is told by its bits. -/
theorem byteBits_injective {byte other : UInt8} (same : byteBits byte = byteBits other) :
    byte = other := by
  apply UInt8.toNat_inj.1
  rw [← ofBits_byteBits, same, ofBits_byteBits]

/-- Bytes are told apart by their bits, `bytes.flatMap byteBits`. -/
theorem flatMap_byteBits_injective {bytes others : Bytes}
    (same : bytes.flatMap byteBits = others.flatMap byteBits) : bytes = others := by
  induction bytes generalizing others with
  | nil =>
      cases others with
      | nil => rfl
      | cons other others => simp [byteBits] at same
  | cons byte bytes ih =>
      cases others with
      | nil => simp [byteBits] at same
      | cons other others =>
          rw [List.flatMap_cons, List.flatMap_cons] at same
          obtain ⟨head, tail⟩ := List.append_inj same rfl
          rw [byteBits_injective head, ih tail]

namespace BitReader

/-- The unread bits of the current byte are fewer than eight, so that `pending` and `bytes` can be
told from the bits left. -/
def Proper (reader : BitReader) : Prop := reader.pending.length < 8

/-- A reader at a byte border is proper. -/
theorem proper_ofBytes (bytes : Bytes) : (ofBytes bytes).Proper := by
  simp [ofBytes, Proper]

/-- The number of bits left: those `pending`, and eight for each byte. -/
theorem length_toBits (reader : BitReader) :
    reader.toBits.length = reader.pending.length + 8 * reader.bytes.length :=
  reader.remaining_eq_length_toBits.symm

/-- A proper reader is told by `toBits`. -/
theorem Proper.eq_of_toBits_eq {reader other : BitReader} (proper : reader.Proper)
    (proper' : other.Proper) (same : reader.toBits = other.toBits) : reader = other := by
  have long := congrArg List.length same
  rw [length_toBits, length_toBits] at long
  unfold Proper at proper proper'
  obtain ⟨front, back⟩ := List.append_inj same (by omega)
  have back := flatMap_byteBits_injective back
  cases reader
  cases other
  exact congrArg₂ BitReader.mk front back

/-- Reading a bit leaves fewer than eight unread bits of a byte. -/
theorem Proper.of_nextBit {reader next : BitReader} {bit : Bool} (proper : reader.Proper)
    (run : reader.nextBit = .ok (bit, next)) : next.Proper := by
  unfold nextBit at run
  unfold Proper at proper ⊢
  split at run
  · cases run
    exact Nat.lt_of_succ_lt proper
  · cases run
    exact Nat.lt_succ_self 7
  · cases run

/-- Where `toBits` starts with a bit, `nextBit` reads it. -/
theorem exists_nextBit {reader : BitReader} {bit : Bool} {rest : List Bool}
    (bits : reader.toBits = bit :: rest) :
    ∃ next, reader.nextBit = .ok (bit, next) ∧ next.toBits = rest := by
  obtain ⟨_ | ⟨first, pending⟩, _ | ⟨byte, bytes⟩⟩ := reader
  · cases bits
  all_goals
    obtain ⟨rfl, rfl⟩ := List.cons.inj bits
    exact ⟨_, rfl, rfl⟩

end BitReader

open BitReader

/-! ## Reads and formats -/

/-- A read that succeeds exactly on the words of a format: `read reader = .ok (value, next)` just
where the bits of `reader` are a word of the value and then those of `next`. -/
def Takes (read : BitReader → Except Fault (α × BitReader)) (spells : α → List Bool → Prop) :
    Prop :=
  ∀ reader value next, reader.Proper →
    (read reader = .ok (value, next) ↔
      next.Proper ∧ ∃ word, spells value word ∧ reader.toBits = word ++ next.toBits)

/-- Two reads, the second of which knows what the first has read: `later value` behind `read`. -/
def andThen (read : BitReader → Except Fault (α × BitReader))
    (later : α → BitReader → Except Fault (β × BitReader)) (reader : BitReader) :
    Except Fault (β × BitReader) :=
  match read reader with
  | .error fault => .error fault
  | .ok (value, next) => later value next

section Takes

variable {read : BitReader → Except Fault (α × BitReader)} {spells spells' : α → List Bool → Prop}
  {later : α → BitReader → Except Fault (β × BitReader)} {spellsLater : α → β → List Bool → Prop}

/-- A read that looks at nothing takes `[]`, the empty word. -/
theorem takes_ok (value : α) :
    Takes (fun reader => .ok (value, reader)) fun value' word => value' = value ∧ word = [] := by
  intro reader value' next proper
  constructor
  · intro run
    cases run
    exact ⟨proper, [], ⟨rfl, rfl⟩, rfl⟩
  · rintro ⟨proper', _, ⟨rfl, rfl⟩, same⟩
    rw [proper.eq_of_toBits_eq proper' same]

/-- A read that fails takes no word. -/
theorem takes_error (fault : Fault) :
    Takes (fun _ => .error fault) fun (_ : α) _ => False := by
  intro reader value next _
  constructor
  · intro run
    cases run
  · rintro ⟨-, _, no, -⟩
    exact no.elim

/-- Formats with the same words are taken by the same reads. -/
theorem Takes.congr (takes : Takes read spells)
    (same : ∀ value word, spells value word ↔ spells' value word) : Takes read spells' := by
  intro reader value next proper
  simp only [← same]
  exact takes reader value next proper

/-- A reader behind some of the bits of another one: if `reader.toBits = front ++ back`, some reader
has the bits `back`. -/
theorem BitReader.Proper.exists_middle {reader : BitReader} (proper : reader.Proper)
    {front back : List Bool} (whole : reader.toBits = front ++ back) :
    ∃ middle : BitReader, middle.Proper ∧ middle.toBits = back := by
  induction front generalizing reader with
  | nil => exact ⟨reader, proper, whole⟩
  | cons bit front ih =>
      obtain ⟨next, run, rest⟩ := exists_nextBit whole
      exact ih (proper.of_nextBit run) rest

/-- A word in front is read, and what stands behind it is left: `read reader = .ok (value, next)`
with `next.toBits = rest`. -/
theorem Takes.run (takes : Takes read spells) {reader : BitReader} (proper : reader.Proper)
    {value : α} {word rest : List Bool} (spelled : spells value word)
    (whole : reader.toBits = word ++ rest) :
    ∃ next, read reader = .ok (value, next) ∧ next.Proper ∧ next.toBits = rest := by
  obtain ⟨next, proper', whole'⟩ := proper.exists_middle whole
  rw [← whole'] at whole
  exact ⟨next, (takes reader value next proper).2 ⟨proper', word, spelled, whole⟩, proper', whole'⟩

/-- **Reads one after the other take words one after the other**: a word of `andThen read later` is
`front ++ back`, a word for each of them. -/
theorem Takes.andThen (first : Takes read spells)
    (second : ∀ value word, spells value word → Takes (later value) (spellsLater value)) :
    Takes (andThen read later) fun result word =>
      ∃ value front back, word = front ++ back ∧ spells value front ∧
        spellsLater value result back := by
  intro reader result next proper
  unfold Deflate.andThen
  constructor
  · intro run
    split at run
    · cases run
    · rename_i value middle hread
      obtain ⟨proper', front, spelled, whole⟩ := (first _ _ _ proper).1 hread
      obtain ⟨proper'', back, spelled', whole'⟩ := (second _ _ spelled _ _ _ proper').1 run
      refine ⟨proper'', front ++ back, ⟨value, front, back, rfl, spelled, spelled'⟩, ?_⟩
      rw [whole, whole', List.append_assoc]
  · rintro ⟨proper'', _, ⟨value, front, back, rfl, spelled, spelled'⟩, whole⟩
    rw [List.append_assoc] at whole
    obtain ⟨middle, run, proper', whole'⟩ := first.run proper spelled whole
    simp only [run]
    exact (second _ _ spelled _ _ _ proper').2 ⟨proper'', back, spelled', whole'⟩

end Takes

/-! ## Numbers and words -/

/-- A bit is its own word. -/
theorem takes_nextBit : Takes nextBit fun bit word => word = [bit] := by
  intro reader bit next proper
  constructor
  · intro run
    exact ⟨proper.of_nextBit run, [bit], rfl, toBits_of_nextBit run⟩
  · rintro ⟨proper', _, rfl, whole⟩
    obtain ⟨next', run, rest⟩ := exists_nextBit whole
    rw [run, (proper.of_nextBit run).eq_of_toBits_eq proper' rest]

/-- A number is read lowest bit first, as `IsNumber` spells it. -/
theorem takes_bits (width : Nat) : Takes (bits width) (IsNumber width) := by
  induction width with
  | zero =>
      refine (takes_ok 0).congr fun value word => ?_
      rw [IsNumber, List.length_eq_zero_iff]
      constructor
      · rintro ⟨rfl, rfl⟩
        exact ⟨rfl, rfl⟩
      · rintro ⟨rfl, rfl⟩
        exact ⟨rfl, rfl⟩
  | succ width ih =>
      have steps : bits (width + 1) = andThen nextBit fun bit => andThen (bits width) fun value =>
          fun reader => .ok (bit.toNat + 2 * value, reader) := by
        funext reader
        rw [bits]
        unfold andThen
        rcases reader.nextBit with _ | ⟨bit, next⟩
        · rfl
        · dsimp only
          rcases next.bits width with _ | _ <;> rfl
      rw [steps]
      refine (takes_nextBit.andThen fun bit _ _ => ih.andThen fun value _ _ =>
        takes_ok (bit.toNat + 2 * value)).congr fun value word => ?_
      constructor
      · rintro ⟨bit, _, _, rfl, rfl, rest, bits, _, rfl, ⟨rfl, rfl⟩, rfl, rfl⟩
        simp [IsNumber, ofBits]
      · rintro ⟨long, rfl⟩
        obtain ⟨bit, rest, rfl⟩ := List.exists_cons_of_length_eq_add_one long
        exact ⟨bit, [bit], rest, rfl, rfl, ofBits rest, rest, [], by simp,
          ⟨Nat.succ.inj long, rfl⟩, rfl, rfl⟩

/-- The rest of a word is read along the tree: the words taken are its `leaves`. -/
theorem CodeTree.takes_decode (tree : CodeTree) :
    Takes tree.decode fun symbol word => (word, symbol) ∈ tree.leaves := by
  induction tree with
  | empty => exact (takes_error _).congr fun value word => by simp [leaves]
  | symbol value =>
      refine (takes_ok value).congr fun value' word => ?_
      simp [leaves, and_comm]
  | node zero one ihZero ihOne =>
      have steps : (CodeTree.node zero one).decode = andThen nextBit fun bit =>
          (bif bit then one else zero).decode := by
        funext reader
        rw [decode]
        unfold andThen
        rcases reader.nextBit with _ | ⟨_ | _, _⟩ <;> rfl
      have branch (bit : Bool) : Takes (bif bit then one else zero).decode fun symbol word =>
          (word, symbol) ∈ (bif bit then one else zero).leaves := by
        cases bit
        · exact ihZero
        · exact ihOne
      rw [steps]
      refine (takes_nextBit.andThen fun bit _ _ => branch bit).congr fun symbol word => ?_
      rw [leaves, List.mem_append, List.mem_map, List.mem_map]
      constructor
      · rintro ⟨_ | _, _, back, rfl, rfl, member⟩
        · exact .inl ⟨_, member, rfl⟩
        · exact .inr ⟨_, member, rfl⟩
      · rintro (⟨⟨back, _⟩, member, same⟩ | ⟨⟨back, _⟩, member, same⟩)
        · cases same
          exact ⟨false, [false], back, rfl, rfl, member⟩
        · cases same
          exact ⟨true, [true], back, rfl, rfl, member⟩

/-- A word is read along the two halves of its code, as `IsWord` spells it. -/
theorem takes_decode {lengths : List Nat} (fits : share lengths ≤ 2 ^ maxWordLength) :
    Takes (HuffmanCode.ofLengths lengths).decode (IsWord lengths) := by
  rw [show (HuffmanCode.ofLengths lengths).decode = _ from
    funext (HuffmanCode.ofLengths lengths).decode_eq]
  exact (CodeTree.takes_decode _).congr fun symbol word => HuffmanCode.mem_leaves_ofLengths fits

/-! ## Tokens -/

/-- A table value is read as an offset, `IsOffset`, from the entry of its symbol. -/
theorem takes_readTableValue (table : Array (Nat × Nat)) (index : Nat) :
    Takes (readTableValue table index) (IsOffset table[index]?) := by
  cases entry : table[index]? with
  | none =>
      have steps : readTableValue table index = fun _ => .error .corrupt := by
        funext reader
        rw [readTableValue, entry]
      rw [steps]
      exact (takes_error _).congr fun value word => by simp [IsOffset]
  | some range =>
      have steps : readTableValue table index = andThen (bits range.2) fun extra => fun reader =>
          .ok (range.1 + extra, reader) := by
        funext reader
        rw [readTableValue, entry]
        unfold andThen
        dsimp only
        rcases reader.bits range.2 with _ | _ <;> rfl
      rw [steps]
      refine ((takes_bits range.2).andThen fun extra _ _ => takes_ok (range.1 + extra)).congr
        fun value word => ?_
      constructor
      · rintro ⟨extra, _, _, rfl, number, rfl, rfl⟩
        exact ⟨range.1, range.2, extra, rfl, by simpa using number, rfl⟩
      · rintro ⟨_, _, extra, same, number, rfl⟩
        cases same
        exact ⟨extra, word, [], by simp, number, rfl, rfl⟩

/-- The table of lengths has the least lengths and extra bits of the format: its entry at `index` is
`lengthRange index`. -/
theorem lengthTable_getElem? (index : Nat) : lengthTable[index]? = lengthRange index := by
  by_cases inside : index < 29
  · have each : ∀ index < 29, lengthTable[index]? = lengthRange index := by decide
    exact each index inside
  · rw [Array.getElem?_eq_none (Nat.le_of_not_lt inside), lengthRange, if_neg (by omega),
      if_neg (by omega), if_neg (by omega)]

/-- The table of distances has the least distances and extra bits of the format: its entry at
`index` is `distanceRange index`. -/
theorem distanceTable_getElem? (index : Nat) : distanceTable[index]? = distanceRange index := by
  by_cases inside : index < 30
  · have each : ∀ index < 30, distanceTable[index]? = distanceRange index := by decide
    exact each index inside
  · rw [Array.getElem?_eq_none (Nat.le_of_not_lt inside), distanceRange, if_neg (by omega),
      if_neg (by omega)]

/-- The codes of a block with the given word lengths. -/
def BlockCodes.ofLengths (literals distances : List Nat) : BlockCodes :=
  ⟨.ofLengths literals, .ofLengths distances⟩

/-- What is read after the first symbol of a token. -/
def readRest (distances : HuffmanCode) (symbol : Nat) :
    BitReader → Except Fault (Token × BitReader) :=
  if symbol < 256 then fun reader => .ok (.literal (UInt8.ofNat symbol), reader)
  else if symbol = 256 then fun reader => .ok (.endOfBlock, reader)
  else
    andThen (readTableValue lengthTable (symbol - 257)) fun length =>
      andThen distances.decode fun symbol =>
        andThen (readTableValue distanceTable symbol) fun distance =>
          fun reader => .ok (.copy length distance, reader)

/-- A token is a symbol and what it asks for, `readRest`. -/
theorem readToken_eq (codes : BlockCodes) :
    codes.readToken = andThen codes.literals.decode (readRest codes.distances) := by
  funext reader
  unfold BlockCodes.readToken andThen
  rcases codes.literals.decode reader with _ | ⟨symbol, next⟩
  · rfl
  dsimp only
  unfold readRest
  split
  · rfl
  split
  · rfl
  unfold andThen
  rcases readTableValue lengthTable (symbol - 257) next with _ | ⟨length, next⟩
  · rfl
  dsimp only
  rcases codes.distances.decode next with _ | ⟨symbol, next⟩
  · rfl
  dsimp only
  rcases readTableValue distanceTable symbol next with _ | ⟨distance, next⟩ <;> rfl

/-- The words of a token behind its first symbol. -/
def IsRest (distances : List Nat) (symbol : Nat) : Token → List Bool → Prop
  | .literal byte, word => symbol = byte.toNat ∧ word = []
  | .endOfBlock, word => symbol = 256 ∧ word = []
  | .copy length distance, word =>
      ∃ index symbol' second third fourth, symbol = 257 + index ∧
        word = second ++ (third ++ fourth) ∧ IsOffset (lengthRange index) length second ∧
        IsWord distances symbol' third ∧ IsOffset (distanceRange symbol') distance fourth

/-- A symbol for a byte, the end of the block or a length is followed by what it asks for. -/
theorem takes_readRest {distances : List Nat} (fits : share distances ≤ 2 ^ maxWordLength)
    (symbol : Nat) : Takes (readRest (.ofLengths distances) symbol) (IsRest distances symbol) := by
  unfold readRest
  split
  · rename_i isByte
    refine (takes_ok _).congr fun token word => ?_
    constructor
    · rintro ⟨rfl, rfl⟩
      exact ⟨by simp [Nat.mod_eq_of_lt isByte], rfl⟩
    · intro rest
      -- No other token has a symbol below 256.
      match token, rest with
      | .literal byte, ⟨same, nothing⟩ =>
          subst same
          exact ⟨by simp, nothing⟩
      | .endOfBlock, ⟨same, _⟩ => omega
      | .copy _ _, ⟨_, _, _, _, _, same, _⟩ => omega
  split
  · rename_i isEnd
    refine (takes_ok _).congr fun token word => ?_
    constructor
    · rintro ⟨rfl, rfl⟩
      exact ⟨isEnd, rfl⟩
    · intro rest
      match token, rest with
      | .literal byte, ⟨same, _⟩ =>
          have := byte.toNat_lt
          omega
      | .endOfBlock, ⟨_, nothing⟩ => exact ⟨rfl, nothing⟩
      | .copy _ _, ⟨_, _, _, _, _, same, _⟩ => omega
  · rename_i notByte notEnd
    refine ((takes_readTableValue _ _).andThen fun length _ _ => (takes_decode fits).andThen
      fun symbol' _ _ => (takes_readTableValue _ _).andThen fun distance _ _ =>
        takes_ok (Token.copy length distance)).congr fun token word => ?_
    constructor
    · rintro ⟨length, second, _, rfl, offset, symbol', third, _, rfl, isWord, distance, fourth, _,
        rfl, offset', rfl, rfl⟩
      rw [lengthTable_getElem?] at offset
      rw [distanceTable_getElem?] at offset'
      exact ⟨symbol - 257, symbol', second, third, fourth, by omega, by simp, offset, isWord,
        offset'⟩
    · intro rest
      match token, rest with
      | .literal byte, ⟨same, _⟩ =>
          have := byte.toNat_lt
          omega
      | .endOfBlock, ⟨same, _⟩ => omega
      | .copy length distance,
          ⟨index, symbol', second, third, fourth, same, whole, offset, isWord, offset'⟩ =>
          subst same
          rw [← lengthTable_getElem?] at offset
          rw [← distanceTable_getElem?] at offset'
          rw [Nat.add_sub_cancel_left]
          exact ⟨length, second, _, whole, offset, symbol', third, _, rfl, isWord, distance, fourth,
            [], by simp, offset', rfl, rfl⟩

/-- **Tokens are read as the format spells them**: `readToken` takes `IsToken`. -/
theorem takes_readToken {literals distances : List Nat}
    (fits : share literals ≤ 2 ^ maxWordLength) (fits' : share distances ≤ 2 ^ maxWordLength) :
    Takes (BlockCodes.ofLengths literals distances).readToken (IsToken literals distances) := by
  rw [readToken_eq]
  refine ((takes_decode fits).andThen fun symbol _ _ => takes_readRest fits' symbol).congr
    fun token word => ?_
  constructor
  · rintro ⟨symbol, front, back, rfl, isWord, rest⟩
    match token, rest with
    | .literal byte, ⟨same, nothing⟩ =>
        rw [nothing, List.append_nil]
        exact .literal (same ▸ isWord)
    | .endOfBlock, ⟨same, nothing⟩ =>
        rw [nothing, List.append_nil]
        exact .endOfBlock (same ▸ isWord)
    | .copy length distance, ⟨_, _, _, _, _, same, whole, offset, isWord', offset'⟩ =>
        rw [whole]
        exact .copy (same ▸ isWord) offset isWord' offset'
  · intro isToken
    cases isToken with
    | literal isWord => exact ⟨_, _, [], (List.append_nil _).symm, isWord, rfl, rfl⟩
    | endOfBlock isWord => exact ⟨_, _, [], (List.append_nil _).symm, isWord, rfl, rfl⟩
    | copy isWord offset isWord' offset' =>
        exact ⟨_, _, _, rfl, isWord, _, _, _, _, _, rfl, rfl, offset, isWord', offset'⟩

end PeerWire.Deflate
