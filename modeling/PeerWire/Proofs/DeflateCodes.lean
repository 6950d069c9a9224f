import PeerWire.Proofs.DeflateReading

/-! # Codes that a block brings

The codes of a block are read as the format spells them (`takes_readCodes`): three counts, the
lengths of the code for word lengths in an order of its own, and the word lengths of both codes, in
which runs are said shortly. -/

namespace PeerWire.Deflate

open BitReader

variable {α : Type}

/-- A number spelled in two parts: the low one is its rest modulo `2 ^ low`. -/
theorem isNumber_add_iff {low high value : Nat} {word : List Bool} :
    IsNumber (low + high) value word ↔
      ∃ front back, word = front ++ back ∧ IsNumber low (value % 2 ^ low) front ∧
        IsNumber high (value / 2 ^ low) back := by
  constructor
  · rintro ⟨long, rfl⟩
    have here : (word.take low).length = low := List.length_take_of_le (by omega)
    have small := ofBits_lt (word.take low)
    have split := ofBits_append (word.take low) (word.drop low)
    rw [List.take_append_drop] at split
    rw [here] at split small
    refine ⟨word.take low, word.drop low, (List.take_append_drop low word).symm, ⟨here, ?_⟩,
      by rw [List.length_drop]; omega, ?_⟩
    · rw [split, Nat.add_mul_mod_self_left, Nat.mod_eq_of_lt small]
    · rw [split, Nat.add_mul_div_left _ _ (Nat.two_pow_pos low), Nat.div_eq_of_lt small,
        Nat.zero_add]
  · rintro ⟨front, back, rfl, ⟨rfl, low⟩, rfl, high⟩
    exact ⟨List.length_append, by rw [ofBits_append, low, high, Nat.mod_add_div]⟩

/-- A number of a width is below its power of two: `value < 2 ^ width`. -/
theorem IsNumber.lt {width value : Nat} {word : List Bool} (number : IsNumber width value word) :
    value < 2 ^ width := by
  obtain ⟨rfl, rfl⟩ := number
  exact ofBits_lt word

/-- The counts of a block stand in one number: `counts % 32`, `counts / 32 % 32` and
`counts / 1024`. -/
theorem isNumber_counts_iff {counts : Nat} {word : List Bool} :
    IsNumber 14 counts word ↔
      ∃ first second third, word = first ++ (second ++ third) ∧ IsNumber 5 (counts % 32) first ∧
        IsNumber 5 (counts / 32 % 32) second ∧ IsNumber 4 (counts / 1024) third := by
  rw [show 14 = 5 + (5 + 4) from rfl, isNumber_add_iff]
  simp only [isNumber_add_iff, Nat.div_div_eq_div_mul]
  constructor
  · rintro ⟨first, _, rfl, low, second, third, rfl, middle, high⟩
    exact ⟨first, second, third, rfl, low, middle, high⟩
  · rintro ⟨first, second, third, rfl, low, middle, high⟩
    exact ⟨first, _, rfl, low, second, third, rfl, middle, high⟩

/-- A read that is made only where something holds takes the words it would take, if it holds. -/
theorem takes_guard {read : BitReader → Except Fault (α × BitReader)}
    {spells : α → List Bool → Prop} {holds : Prop} [Decidable holds] {fault : Fault}
    (takes : holds → Takes read spells) :
    Takes (if holds then read else fun _ => .error fault) fun value word =>
      holds ∧ spells value word := by
  split
  · rename_i holding
    exact (takes holding).congr fun value word => by simp [holding]
  · rename_i failing
    exact (takes_error fault).congr fun value word => by simp [failing]

/-! ## The code for word lengths -/

/-- The lengths are numbers of three bits, one for each symbol: what is read is `symbols.zip
lengths`. -/
theorem takes_readLengthCode (symbols : List Nat) :
    Takes (readLengthCode symbols) fun given word =>
      ∃ lengths words, given = symbols.zip lengths ∧ lengths.length = symbols.length ∧
        word = words.flatten ∧ List.Forall₂ (IsNumber 3) lengths words := by
  induction symbols with
  | nil =>
      refine (takes_ok []).congr fun given word => ?_
      constructor
      · rintro ⟨rfl, rfl⟩
        exact ⟨[], [], rfl, rfl, rfl, .nil⟩
      · rintro ⟨_, words, rfl, none, rfl, spelled⟩
        obtain rfl := List.length_eq_zero_iff.1 none
        cases spelled
        exact ⟨rfl, rfl⟩
  | cons symbol symbols ih =>
      have steps : readLengthCode (symbol :: symbols) = andThen (bits 3) fun length =>
          andThen (readLengthCode symbols) fun rest => fun reader =>
            .ok ((symbol, length) :: rest, reader) := by
        funext reader
        rw [readLengthCode]
        unfold andThen
        rcases reader.bits 3 with _ | ⟨length, next⟩
        · rfl
        · dsimp only
          rcases readLengthCode symbols next with _ | _ <;> rfl
      rw [steps]
      refine ((takes_bits 3).andThen fun length _ _ => ih.andThen fun rest _ _ =>
        takes_ok ((symbol, length) :: rest)).congr fun given word => ?_
      constructor
      · rintro ⟨length, front, _, rfl, number, _, _, _, rfl,
          ⟨lengths, words, rfl, long, rfl, spelled⟩, rfl, rfl⟩
        exact ⟨length :: lengths, front :: words, rfl, congrArg (· + 1) long, by simp,
          .cons number spelled⟩
      · rintro ⟨_, _, rfl, long, rfl, spelled⟩
        cases spelled with
        | nil => cases long
        | cons number spelled =>
            exact ⟨_, _, _, rfl, number, _, _, [], (List.append_nil _).symm,
              ⟨_, _, rfl, Nat.succ.inj long, rfl, spelled⟩, rfl, rfl⟩

/-- Keys without a value do not count: `(keys.take count).zip values` is all of `keys.zip
values`. -/
theorem zip_take {values : List Nat} {count : Nat} (short : values.length ≤ count)
    (keys : List Nat) :
    (keys.take count).zip values = keys.zip values := by
  induction keys generalizing values count with
  | nil => simp
  | cons key keys ih =>
      match values, count with
      | [], _ => simp
      | value :: values, count + 1 =>
          rw [List.take_succ_cons, List.zip_cons_cons, List.zip_cons_cons,
            ih (Nat.le_of_succ_le_succ short)]

/-- Looking up a key that stands once finds the value at its place: `values[place]?` for the key at
`place`. -/
theorem lookup_zip {keys values : List Nat} (distinct : keys.Nodup) {place : Nat}
    (inside : place < keys.length) : (keys.zip values).lookup keys[place] = values[place]? := by
  induction keys generalizing values place with
  | nil => cases inside
  | cons key keys ih =>
      obtain ⟨fresh, distinct⟩ := List.nodup_cons.1 distinct
      match values, place with
      | [], _ => simp
      | value :: values, 0 => simp
      | value :: values, place + 1 =>
          have inside : place < keys.length := Nat.lt_of_succ_lt_succ inside
          have other : keys[place] ≠ key := fun same => fresh (same ▸ List.getElem_mem inside)
          rw [List.zip_cons_cons, List.getElem_cons_succ, List.lookup_cons, beq_false_of_ne other]
          exact ih distinct inside

/-- The lengths of the code for word lengths are looked up by symbol, in `givenOrder.zip given`. -/
theorem isLengthCode_iff {given code : List Nat} :
    IsLengthCode given code ↔
      code = (List.range 19).map fun symbol => ((givenOrder.zip given).lookup symbol).getD 0 := by
  have found (place : Nat) (inside : place < givenOrder.length) :
      ((List.range 19).map fun symbol => ((givenOrder.zip given).lookup symbol).getD 0)[
        givenOrder[place]]? = some (given.getD place 0) := by
    have small : givenOrder[place] < 19 := by
      have each : ∀ symbol ∈ givenOrder, symbol < 19 := by decide
      exact each _ (List.getElem_mem inside)
    rw [List.getElem?_map, List.getElem?_range small, Option.map_some,
      lookup_zip (by decide) inside, List.getD_eq_getElem?_getD]
  constructor
  · rintro ⟨long, places⟩
    apply List.ext_getElem?
    intro symbol
    by_cases small : symbol < 19
    · -- Every symbol has its place in the order.
      have each : ∀ symbol < 19, symbol ∈ givenOrder := by decide
      obtain ⟨place, inside, rfl⟩ := List.getElem_of_mem (each symbol small)
      rw [places place inside, found place inside]
    · rw [List.getElem?_eq_none (by omega), List.getElem?_eq_none (by simp; omega)]
  · rintro rfl
    exact ⟨by simp, found⟩

/-! ## Word lengths -/

/-- Word lengths are only added. -/
theorem IsLengths.length_le {code done all : List Nat} {word : List Bool}
    (isLengths : IsLengths code done word all) : done.length ≤ all.length := by
  induction isLengths with
  | nil => exact Nat.le_refl _
  | length _ _ _ ih | again _ _ _ _ ih | zeros _ _ _ ih | manyZeros _ _ _ ih =>
      rw [List.length_append] at ih
      exact Nat.le_of_add_right_le ih

/-- Where lengths have been added, there were fewer before: `done.length < all.length`. -/
theorem IsLengths.length_lt {code done added all : List Nat} {word : List Bool}
    (isLengths : IsLengths code (done ++ added) word all) (some : added ≠ []) :
    done.length < all.length := by
  have upTo := isLengths.length_le
  have pos := List.length_pos_of_ne_nil some
  rw [List.length_append] at upTo
  omega

section Lengths

variable {code : List Nat} {count : Nat} {done : List Nat}

/-- The word lengths that are read are word lengths of the format; the reader holds those there are
already last one first, as `done`. -/
theorem isLengths_of_readLengths (fits : share code ≤ 2 ^ maxWordLength)
    (symbols : code.length = 19) {reader next : BitReader} {all : List Nat} (proper : reader.Proper)
    (run : readLengths (.ofLengths code) count done reader = .ok (all, next)) :
    next.Proper ∧ ∃ word, (all.length = count ∧ IsLengths code done.reverse word all) ∧
      reader.toBits = word ++ next.toBits := by
  fun_induction readLengths (.ofLengths code) count done reader with
  | case1 done reader full =>
      cases run
      exact ⟨proper, [], ⟨by simpa using full, .nil⟩, rfl⟩
  | case2 | case3 => cases run
  | case4 done reader few small symbol after hsymbol isLength ih =>
      obtain ⟨proper', front, isWord, whole⟩ := (takes_decode fits _ _ _ proper).1 hsymbol
      obtain ⟨proper'', back, ⟨long, isLengths⟩, whole'⟩ := ih proper' run
      rw [List.reverse_cons] at isLengths
      refine ⟨proper'', front ++ back, ⟨long, .length isLength isWord isLengths⟩, ?_⟩
      rw [whole, whole', List.append_assoc]
  | case5 | case6 => cases run
  | case7 done reader few small after last hlast extra rest hbits hsymbol isRun ih =>
      obtain ⟨proper₁, front, isWord, whole⟩ := (takes_decode fits _ _ _ proper).1 hsymbol
      obtain ⟨proper₂, more, number, whole₁⟩ := (takes_bits 2 _ _ _ proper₁).1 hbits
      obtain ⟨proper₃, back, ⟨long, isLengths⟩, whole₂⟩ := ih proper₂ run
      rw [List.reverse_append, List.reverse_replicate] at isLengths
      rw [← List.getLast?_reverse] at hlast
      refine ⟨proper₃, front ++ (more ++ back), ⟨long, .again isWord number hlast isLengths⟩, ?_⟩
      rw [whole, whole₁, whole₂, List.append_assoc, List.append_assoc]
  | case8 => cases run
  | case9 done reader few small symbol after hsymbol isRun isZeros extra rest hbits run' ih =>
      obtain ⟨proper₁, front, isWord, whole⟩ := (takes_decode fits _ _ _ proper).1 hsymbol
      obtain ⟨proper₂, more, number, whole₁⟩ := (takes_bits _ _ _ _ proper₁).1 hbits
      obtain ⟨proper₃, back, ⟨long, isLengths⟩, whole₂⟩ := ih proper₂ run
      rw [List.reverse_append, List.reverse_replicate] at isLengths
      refine ⟨proper₃, front ++ (more ++ back), ⟨long, ?_⟩, ?_⟩
      · -- Only two symbols are left for runs of zeros.
        obtain ⟨inside, -⟩ := List.getElem?_eq_some_iff.1 isWord.2.2.1
        obtain rfl | rfl : symbol = 17 ∨ symbol = 18 := by omega
        · exact .zeros isWord number isLengths
        · refine .manyZeros isWord number ?_
          rwa [show 11 + extra = run' by simp [run']; omega]
      · rw [whole, whole₁, whole₂, List.append_assoc, List.append_assoc]

/-- Word lengths of the format are read. -/
theorem readLengths_of_isLengths (fits : share code ≤ 2 ^ maxWordLength) {before all : List Nat}
    {word : List Bool} (isLengths : IsLengths code before word all) {reader next : BitReader}
    (proper : reader.Proper) (proper' : next.Proper) (start : before = done.reverse)
    (whole : reader.toBits = word ++ next.toBits) :
    readLengths (.ofLengths code) all.length done reader = .ok (all, next) := by
  induction isLengths generalizing reader done with
  | nil =>
      obtain rfl := proper.eq_of_toBits_eq proper' whole
      rw [start, readLengths, if_pos (by simp)]
  | length isLength isWord isLengths ih =>
      subst start
      rw [List.append_assoc] at whole
      obtain ⟨middle, read, proper₁, whole₁⟩ := (takes_decode fits).run proper isWord whole
      have few := isLengths.length_lt (by simp)
      rw [List.length_reverse] at few
      rw [readLengths_of_length few read isLength]
      exact ih proper₁ (by rw [List.reverse_cons]) whole₁
  | again isWord number hlast isLengths ih =>
      subst start
      rw [List.append_assoc, List.append_assoc] at whole
      obtain ⟨middle, read, proper₁, whole₁⟩ := (takes_decode fits).run proper isWord whole
      obtain ⟨after, times, proper₂, whole₂⟩ := (takes_bits 2).run proper₁ number whole₁
      have few := isLengths.length_lt (by simp)
      rw [List.length_reverse] at few
      rw [List.getLast?_reverse] at hlast
      rw [readLengths_of_again few read hlast times]
      exact ih proper₂ (by rw [List.reverse_append, List.reverse_replicate]) whole₂
  | zeros isWord number isLengths ih =>
      subst start
      rw [List.append_assoc, List.append_assoc] at whole
      obtain ⟨middle, read, proper₁, whole₁⟩ := (takes_decode fits).run proper isWord whole
      obtain ⟨after, times, proper₂, whole₂⟩ := (takes_bits 3).run proper₁ number whole₁
      have few := isLengths.length_lt (by simp)
      rw [List.length_reverse] at few
      rw [readLengths_of_zeros few read (by decide) times]
      exact ih proper₂ (by rw [List.reverse_append, List.reverse_replicate]; rfl) whole₂
  | @manyZeros _ _ extra _ _ _ isWord number isLengths ih =>
      subst start
      rw [List.append_assoc, List.append_assoc] at whole
      obtain ⟨middle, read, proper₁, whole₁⟩ := (takes_decode fits).run proper isWord whole
      obtain ⟨after, times, proper₂, whole₂⟩ := (takes_bits 7).run proper₁ number whole₁
      have few := isLengths.length_lt (by simp)
      rw [List.length_reverse] at few
      rw [readLengths_of_zeros few read (by decide) times]
      -- The inflater counts such a run from three, the format from eleven.
      refine ih proper₂ ?_ whole₂
      rw [List.reverse_append, List.reverse_replicate, if_neg (by decide),
        show 3 + (extra + 8) = 11 + extra by omega]

/-- Word lengths are read up to their number: `readLengths` takes the words of `IsLengths` that lead
to `count` of them. -/
theorem takes_readLengths (fits : share code ≤ 2 ^ maxWordLength) (symbols : code.length = 19)
    (count : Nat) :
    Takes (readLengths (.ofLengths code) count []) fun all word =>
      all.length = count ∧ IsLengths code [] word all := by
  intro reader all next proper
  constructor
  · exact isLengths_of_readLengths fits symbols proper
  · rintro ⟨proper', word, ⟨rfl, isLengths⟩, whole⟩
    exact readLengths_of_isLengths fits isLengths proper proper' rfl whole

end Lengths

/-! ## Both codes -/

/-- The weight of word lengths is their share: `weight lengths = share lengths`. -/
theorem weight_eq_share (lengths : List Nat) : HuffmanCode.weight lengths = share lengths := by
  have from_sum (sum : Nat) :
      lengths.foldl (fun sum length => if length = 0 then sum else
        sum + 1 <<< (maxWordLength - length)) sum = sum + share lengths := by
    induction lengths generalizing sum with
    | nil => rfl
    | cons length lengths ih =>
        rw [List.foldl_cons, ih, share, share]
        by_cases zero : length = 0
        · simp [zero]
        · simp [zero, Nat.one_shiftLeft, Nat.add_assoc]
  rw [HuffmanCode.weight, from_sum, Nat.zero_add]

/-- Codes are complete as the format says. -/
theorem isComplete_iff {lengths : List Nat} :
    HuffmanCode.isComplete lengths = true ↔ Complete lengths := by
  rw [HuffmanCode.isComplete, decide_eq_true_eq, weight_eq_share, Nat.one_shiftLeft, Complete]

/-- Codes may be used as the format says. -/
theorem isUsable_iff {lengths : List Nat} :
    HuffmanCode.isUsable lengths = true ↔ Usable lengths := by
  simp only [HuffmanCode.isUsable, Bool.or_eq_true, isComplete_iff, decide_eq_true_eq, Usable,
    or_assoc]

/-- A usable code takes up no more bit strings than there are: `share lengths ≤ 2 ^ 15`. -/
theorem Usable.share_le {lengths : List Nat} (usable : Usable lengths) :
    share lengths ≤ 2 ^ maxWordLength := by
  rcases usable with complete | none | single
  · exact Nat.le_of_eq complete
  · rw [share, none]
    decide
  · rw [share, single]
    decide

/-- The codes that a block brings may be used. -/
theorem IsCodes.usable {literals distances : List Nat} {word : List Bool}
    (isCodes : IsCodes literals distances word) : Usable literals ∧ Usable distances := by
  obtain ⟨-, -, -, -, -, -, -, -, -, -, -, -, usable, usable'⟩ := isCodes
  exact ⟨usable, usable'⟩

/-- What is read behind the three counts. -/
def readCounted (counts : Nat) : BitReader → Except Fault (BlockCodes × BitReader) :=
  if counts % 32 + 257 ≤ 286 ∧ counts / 32 % 32 + 1 ≤ 30 then
    andThen (readLengthCode (lengthCodeOrder.take (counts / 1024 + 4))) fun given =>
      let code := (List.range 19).map fun symbol => (given.lookup symbol).getD 0
      if Complete code then
        andThen (readLengths (.ofLengths code) (counts % 32 + 257 + (counts / 32 % 32 + 1)) [])
          fun all =>
            let literals := all.take (counts % 32 + 257)
            let distances := all.drop (counts % 32 + 257)
            if Usable literals ∧ Usable distances then fun reader =>
              .ok (BlockCodes.ofLengths literals distances, reader)
            else fun _ => .error .corrupt
      else fun _ => .error .corrupt
  else fun _ => .error .corrupt

/-- The codes of a block are three counts in 14 bits and what they ask for, `readCounted`. -/
theorem readCodes_eq : readCodes = andThen (bits 14) readCounted := by
  funext reader
  unfold readCodes andThen
  rcases reader.bits 14 with _ | ⟨counts, next⟩
  · rfl
  dsimp only
  unfold readCounted
  by_cases few : counts % 32 + 257 ≤ 286 ∧ counts / 32 % 32 + 1 ≤ 30
  · rw [if_pos few, if_neg (by simp only [Bool.or_eq_true, decide_eq_true_eq]; omega)]
    unfold andThen
    rcases readLengthCode (lengthCodeOrder.take (counts / 1024 + 4)) next with _ | ⟨given, next⟩
    · rfl
    dsimp only
    generalize ((List.range 19).map fun symbol => (given.lookup symbol).getD 0) = code
    by_cases complete : Complete code
    · rw [if_pos complete, if_neg (by simp [isComplete_iff.2 complete])]
      rcases readLengths (.ofLengths code) (counts % 32 + 257 + (counts / 32 % 32 + 1)) [] next with
        _ | ⟨all, next⟩
      · rfl
      dsimp only
      simp only [Bool.and_eq_true, isUsable_iff]
      split <;> rfl
    · have incomplete : HuffmanCode.isComplete code = false :=
        Bool.eq_false_iff.2 fun is => complete (isComplete_iff.1 is)
      rw [if_neg complete, if_pos (by simp [incomplete])]
  · rw [if_neg few, if_pos]
    simp only [Bool.or_eq_true, decide_eq_true_eq]
    omega

/-- **The codes of a block are read as the format spells them**: `readCodes` takes `IsCodes`, and
gives the codes with the word lengths spelled. -/
theorem takes_readCodes :
    Takes readCodes fun codes word => ∃ literals distances,
      codes = BlockCodes.ofLengths literals distances ∧ IsCodes literals distances word := by
  rw [readCodes_eq]
  refine ((takes_bits 14).andThen fun counts _ _ => takes_guard fun few =>
    (takes_readLengthCode _).andThen fun given _ _ => takes_guard fun complete =>
      (takes_readLengths (Nat.le_of_eq complete) (by simp) _).andThen fun all _ _ =>
        takes_guard fun usable => takes_ok _).congr fun codes word => ?_
  constructor
  · -- The number that is read says how many lengths there are of each kind.
    rintro ⟨counts, _, _, rfl, number, few, _, _, _, rfl, ⟨given, numbers, rfl, long, rfl, spelled⟩,
      complete, all, lengths, _, rfl, ⟨count, isLengths⟩, usable, rfl, rfl⟩
    obtain ⟨first, second, third, rfl, low, middle, high⟩ := isNumber_counts_iff.1 number
    have small := high.lt
    rw [List.length_take, show lengthCodeOrder.length = 19 from rfl] at long
    have taken : (all.take (counts % 32 + 257)).length = counts % 32 + 257 :=
      List.length_take_of_le (by omega)
    have dropped : (all.drop (counts % 32 + 257)).length = counts / 32 % 32 + 1 := by
      rw [List.length_drop]
      omega
    rw [zip_take (by omega)] at complete isLengths
    refine ⟨_, _, rfl, ?_⟩
    rw [List.append_nil, List.append_assoc, List.append_assoc]
    refine .mk (by omega) (by omega) (by omega) (by omega) (by omega) ?_ ?_ ?_ spelled
      (isLengthCode_iff.2 rfl) complete ?_ usable.1 usable.2
    · rwa [taken, Nat.add_sub_cancel]
    · rwa [dropped, Nat.add_sub_cancel]
    · rwa [show given.length - 4 = counts / 1024 by omega]
    · rwa [List.take_append_drop]
  · rintro ⟨literals, distances, rfl, isCodes⟩
    obtain @⟨given, code, first, second, third, lengths, numbers, some, few, some', few', some'',
      low, middle, high, spelled, isLengthCode, complete, isLengths, usable, usable'⟩ := isCodes
    have small := low.lt
    have small' := middle.lt
    have small'' := high.lt
    obtain rfl := isLengthCode_iff.1 isLengthCode
    -- The counts of the format are parts of one number, which is what the inflater reads.
    obtain ⟨counts, hcounts⟩ : ∃ counts, counts = literals.length - 257 +
        32 * (distances.length - 1 + 32 * (given.length - 4)) := ⟨_, rfl⟩
    have literalCount : counts % 32 + 257 = literals.length := by omega
    have distanceCount : counts / 32 % 32 + 1 = distances.length := by omega
    have givenCount : counts / 1024 + 4 = given.length := by omega
    have number : IsNumber 14 counts (first ++ (second ++ third)) := by
      rw [← literalCount, Nat.add_sub_cancel] at low
      rw [← distanceCount, Nat.add_sub_cancel] at middle
      rw [← givenCount, Nat.add_sub_cancel] at high
      exact isNumber_counts_iff.2 ⟨first, second, third, rfl, low, middle, high⟩
    have sameKeys := zip_take (Nat.le_of_eq givenCount.symm) lengthCodeOrder
    refine ⟨counts, first ++ (second ++ third), numbers.flatten ++ lengths, by simp, number,
      by omega, _, numbers.flatten, lengths, rfl, ⟨given, numbers, rfl, ?_, rfl, spelled⟩, ?_,
      literals ++ distances, lengths, [], by simp, ⟨?_, ?_⟩, ?_, ?_, rfl⟩
    · rw [List.length_take, givenCount, show lengthCodeOrder.length = 19 from rfl]
      omega
    · rwa [sameKeys]
    · rw [List.length_append, literalCount, distanceCount]
    · rwa [sameKeys]
    · rw [literalCount, List.take_left, List.drop_left]
      exact ⟨usable, usable'⟩
    · rw [literalCount, List.take_left, List.drop_left]

end PeerWire.Deflate
