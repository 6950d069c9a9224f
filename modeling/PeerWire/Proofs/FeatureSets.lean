import Mathlib.Data.Finset.Sort
import PeerWire.Proofs.Decoding
import PeerWire.Proofs.OctetBits

/-! # Feature vectors are finite sets

A feature vector is a set of bit numbers, whatever it was made from and whatever was put into it
and taken out of it since. Beside each construction and update stands the one of sets
(`Step.apply`), and one step takes a vector and the set that it denotes to a vector and the set
that it denotes (`Denotes.perform`). Everything that can be asked of a vector is then told by its
set (`Denotes.holds`), and vectors are equal if their sets are (`run_holds`). -/

namespace PeerWire

/-! ## Numbered features -/

namespace Feature

/-- The number of a feature: the feature numbered `f` owns the bits `2 * f` and `2 * f + 1`. -/
def number : Feature → Nat
  | .dataLossProtect => 0
  | .initialRoutingSync => 1
  | .upfrontShutdownScript => 2
  | .gossipQueries => 3

/-- The lower bit of a pair requires its feature: `2 * feature.number`. -/
theorem requiredBit_eq (feature : Feature) : feature.requiredBit = 2 * feature.number := by
  cases feature <;> rfl

/-- The upper bit of a pair supports its feature: `2 * feature.number + 1`. -/
theorem optionalBit_eq (feature : Feature) : feature.optionalBit = 2 * feature.number + 1 := by
  rw [optionalBit, requiredBit_eq]

/-- The first four pairs of bits are those of the features that have a name: `ofBit? bit = none` for
`8 ≤ bit`. -/
theorem ofBit?_eq_none_iff (bit : Nat) : ofBit? bit = none ↔ 8 ≤ bit := by
  rw [ofBit?, all, List.find?_eq_none]
  simp only [decide_eq_true_eq]
  simp only [List.mem_cons, List.not_mem_nil, or_false, forall_eq_or_imp, forall_eq, requiredBit]
  omega

end Feature

namespace FeatureVector

variable {vector other : FeatureVector} {set : Finset Nat} {bit greatest : Nat} {last : UInt8}

/-! ## Bits of a vector -/

/-- A bit is in the set if it is one: `vector.contains bit = bitAt vector.octets bit`. -/
theorem contains_eq_bitAt (vector : FeatureVector) (bit : Nat) :
    vector.contains bit = bitAt vector.octets bit := by
  rw [contains, and_bitMask_bne_zero, bitAt, List.getD_eq_getElem?_getD]

/-- The bits of bytes, whatever zeros they end in. -/
theorem contains_ofOctets (octets : Bytes) (bit : Nat) :
    (ofOctets octets).contains bit = bitAt octets bit := by
  rw [contains_eq_bitAt]
  exact bitAt_trimZeros octets bit

/-- No bit is in the empty set. -/
theorem contains_empty (bit : Nat) : empty.contains bit = false := by
  rw [contains_eq_bitAt]
  exact bitAt_of_length_le (Nat.zero_le _)

/-- The set that a byte string writes has the bits of the number that it writes, `ofBigEndian
bytes`. -/
theorem contains_ofBytes (bytes : Bytes) (bit : Nat) :
    (ofBytes bytes).contains bit = (ofBigEndian bytes).testBit bit := by
  rw [ofBytes, contains_ofOctets, testBit_ofBigEndian]

/-- Putting a bit in changes this bit only: `bit = added || vector.contains bit`. -/
theorem contains_insert (vector : FeatureVector) (added bit : Nat) :
    (vector.insert added).contains bit = (decide (bit = added) || vector.contains bit) := by
  -- The zeros put at the end reach up to the byte of the bit.
  have inside : added / 8 <
      (vector.octets ++ List.replicate (added / 8 + 1 - vector.octets.length) 0).length := by
    rw [List.length_append, List.length_replicate]
    omega
  rw [insert, contains_ofOctets, bitAt_modify_or inside, bitAt_append_zeros, contains_eq_bitAt]

/-- Taking a bit out changes this bit only. -/
theorem contains_erase (vector : FeatureVector) (removed bit : Nat) :
    (vector.erase removed).contains bit = (!decide (bit = removed) && vector.contains bit) := by
  rw [erase, contains_ofOctets, contains_eq_bitAt]
  rcases Nat.lt_or_ge (removed / 8) vector.octets.length with inside | past
  · exact bitAt_modify_and_not inside bit
  · -- A bit past the end is zero already.
    rw [List.modify_eq_self past]
    by_cases same : bit = removed
    · rw [same, bitAt_of_length_le past, Bool.and_false]
    · rw [decide_eq_false same, Bool.not_false, Bool.true_and]

/-- Putting bits in one after the other puts them all in. -/
theorem contains_foldl_insert (bits : List Nat) (vector : FeatureVector) (bit : Nat) :
    (bits.foldl insert vector).contains bit = (decide (bit ∈ bits) || vector.contains bit) := by
  induction bits generalizing vector with
  | nil => simp
  | cons first bits ih =>
      rw [List.foldl_cons, ih, contains_insert, ← Bool.or_assoc]
      congr 1
      rw [Bool.or_comm, ← Bool.decide_or]
      exact decide_eq_decide.2 List.mem_cons.symm

/-- The set of some bits has them and no others: `bit ∈ bits`. -/
theorem contains_ofBits (bits : List Nat) (bit : Nat) :
    (ofBits bits).contains bit = decide (bit ∈ bits) := by
  rw [ofBits, contains_foldl_insert, contains_empty, Bool.or_false]

/-- **Vectors with the same bits are equal**, `vector = other`: there are no zeros at their ends to
tell them apart. -/
theorem eq_of_contains_eq (same : ∀ bit, vector.contains bit = other.contains bit) :
    vector = other := by
  have octets : vector.octets = other.octets := by
    refine eq_of_bitAt_eq vector.trimmed other.trimmed fun bit => ?_
    rw [← contains_eq_bitAt, same, contains_eq_bitAt]
  cases vector
  cases other
  cases octets
  rfl

/-! ## Asking for all bits -/

/-- The bits that a byte contributes. -/
theorem mem_octetBits {start : Nat} {octet : UInt8} :
    bit ∈ octetBits start octet ↔ ∃ place < 8, octet.toNat.testBit place ∧ bit = start + place := by
  simp only [octetBits, List.mem_filterMap, List.mem_range, Option.ite_none_right_eq_some,
    Option.some.injEq]
  exact exists_congr fun place => and_congr_right fun _ => and_congr_right fun _ => eq_comm

/-- The bits that a byte contributes ascend. -/
theorem pairwise_octetBits (start : Nat) (octet : UInt8) :
    (octetBits start octet).Pairwise (· < ·) := by
  refine List.pairwise_lt_range.filterMap _ fun low high less bit from_low bit' from_high => ?_
  simp only [Option.ite_none_right_eq_some, Option.some.injEq] at from_low from_high
  omega

/-- The listed bits are those in the set: `bit ∈ vector.bits` if `vector.contains bit`. -/
theorem mem_bits (vector : FeatureVector) (bit : Nat) :
    bit ∈ vector.bits ↔ vector.contains bit = true := by
  rw [bits, List.mem_flatMap, contains_eq_bitAt]
  constructor
  · rintro ⟨⟨octet, index⟩, listed, contributed⟩
    obtain ⟨place, low, one, rfl⟩ := mem_octetBits.1 contributed
    have found : vector.octets[index]? = some octet := List.mem_zipIdx_iff_getElem?.1 listed
    rw [bitAt_add _ _ low, List.getD_eq_getElem?_getD, found]
    exact one
  · intro one
    have inside := lt_length_of_bitAt one
    refine ⟨(vector.octets[bit / 8], bit / 8),
      List.mem_zipIdx_iff_getElem?.2 (List.getElem?_eq_getElem inside),
      mem_octetBits.2 ⟨bit % 8, Nat.mod_lt _ (by decide), ?_, (Nat.div_add_mod bit 8).symm⟩⟩
    rwa [bitAt, List.getD_eq_getElem _ _ inside] at one

/-- The bits are listed in ascending order and none of them twice. -/
theorem pairwise_bits (vector : FeatureVector) : vector.bits.Pairwise (· < ·) := by
  rw [bits, List.pairwise_flatMap]
  refine ⟨fun octet _ => pairwise_octetBits _ _, ?_⟩
  have ascending : (vector.octets.zipIdx.map Prod.snd).Pairwise (· < ·) := by
    rw [List.zipIdx_map_snd]
    exact List.pairwise_lt_range'
  refine (List.pairwise_map.1 ascending).imp fun {low high} less bit from_low bit' from_high => ?_
  obtain ⟨place, small, -, rfl⟩ := mem_octetBits.1 from_low
  obtain ⟨place', -, -, rfl⟩ := mem_octetBits.1 from_high
  omega

/-! ## The highest bit -/

/-- The highest one of the last byte is the highest bit of a set. -/
theorem contains_of_getLast? (ended : vector.octets.getLast? = some last) :
    vector.contains ((vector.octets.length - 1) * 8 + last.toNat.log2) = true ∧
      ∀ bit, vector.contains bit = true →
        bit ≤ (vector.octets.length - 1) * 8 + last.toNat.log2 := by
  obtain ⟨front, octets⟩ := List.getLast?_eq_some_iff.1 ended
  -- A vector does not end in a zero, so that its last byte has a highest one.
  have nonzero : last.toNat ≠ 0 := by
    intro zero
    obtain rfl : last = 0 := UInt8.toNat_inj.1 zero
    exact vector.trimmed ended
  have low : last.toNat.log2 < 8 := (Nat.log2_lt nonzero).2 last.toNat_lt
  have length : vector.octets.length - 1 = front.length := by
    rw [octets, List.length_append, List.length_singleton, Nat.add_sub_cancel]
  have byte : vector.octets.getD front.length 0 = last := by
    rw [octets, List.getD_append_right _ _ _ _ (Nat.le_refl _), Nat.sub_self]
    rfl
  rw [length, Nat.mul_comm]
  constructor
  · rw [contains_eq_bitAt, bitAt_add _ _ low, byte]
    exact Nat.testBit_log2 nonzero
  · intro bit one
    rw [contains_eq_bitAt] at one
    have inside := lt_length_of_bitAt one
    by_cases within : bit / 8 = front.length
    · rw [bitAt, within, byte] at one
      have := (Nat.le_log2 nonzero).2 (Nat.ge_two_pow_of_testBit one)
      omega
    · omega

/-- A set with bits has a highest one, which is in the last byte. -/
theorem contains_of_max? (found : vector.max? = some greatest) :
    vector.contains greatest = true ∧ ∀ bit, vector.contains bit = true → bit ≤ greatest := by
  obtain ⟨last, ended, rfl⟩ := Option.map_eq_some_iff.1 found
  exact contains_of_getLast? ended

/-- A vector without a highest bit has no bytes: `vector.octets = []`. -/
theorem max?_eq_none_iff (vector : FeatureVector) : vector.max? = none ↔ vector.octets = [] := by
  rw [max?, Option.map_eq_none_iff, List.getLast?_eq_none_iff]

/-- A set has the bytes up to that of its highest bit: `greatest / 8 + 1`. -/
theorem byteLength_of_max? (found : vector.max? = some greatest) :
    vector.byteLength = greatest / 8 + 1 := by
  obtain ⟨last, ended, rfl⟩ := Option.map_eq_some_iff.1 found
  have nonempty : vector.octets.length ≠ 0 := by
    intro none
    rw [List.length_eq_zero_iff.1 none] at ended
    cases ended
  have low : last.toNat.log2 < 8 := by
    by_cases zero : last.toNat = 0
    · rw [zero]
      decide
    · exact (Nat.log2_lt zero).2 last.toNat_lt
  rw [byteLength]
  omega

/-- **Putting a bit in leaves nothing to trim**: the byte of the bit is not zero, and where it is
not the last one the last one stays. -/
theorem octets_insert (vector : FeatureVector) (bit : Nat) :
    (vector.insert bit).octets =
      (vector.octets ++ List.replicate (bit / 8 + 1 - vector.octets.length) 0).modify (bit / 8)
        (· ||| bitMask bit) := by
  let padded := vector.octets ++ List.replicate (bit / 8 + 1 - vector.octets.length) 0
  have length : padded.length = max vector.octets.length (bit / 8 + 1) := by
    rw [List.length_append, List.length_replicate]
    omega
  have inside : bit / 8 < padded.length := by omega
  have bits (place : Nat) : bitAt (padded.modify (bit / 8) (· ||| bitMask bit)) place =
      (decide (place = bit) || vector.contains place) := by
    rw [bitAt_modify_or inside, bitAt_append_zeros, contains_eq_bitAt]
  apply trimZeros_eq_self
  -- The last byte holds the new bit, or else the bit that was the highest before.
  rcases Nat.lt_or_ge vector.octets.length (bit / 8 + 1) with grown | kept
  · have one : bitAt (padded.modify (bit / 8) (· ||| bitMask bit)) bit = true := by
      rw [bits, decide_eq_true rfl, Bool.true_or]
    refine getLast?_ne_of_bitAt one ?_
    rw [List.length_modify, length]
    omega
  · obtain ⟨last, ended⟩ : ∃ last, vector.octets.getLast? = some last :=
      ⟨_, List.getLast?_eq_some_getLast (List.ne_nil_of_length_pos (by omega))⟩
    have one : bitAt (padded.modify (bit / 8) (· ||| bitMask bit))
        ((vector.octets.length - 1) * 8 + last.toNat.log2) = true := by
      rw [bits, (contains_of_getLast? ended).1, Bool.or_true]
    refine getLast?_ne_of_bitAt one ?_
    rw [List.length_modify, length]
    omega

/-! ## The set of a vector -/

/-- A vector denotes the set of the bits that it contains: `vector.contains bit` if `bit ∈ set`. -/
def Denotes (vector : FeatureVector) (set : Finset Nat) : Prop :=
  ∀ bit, vector.contains bit = true ↔ bit ∈ set

/-- What a vector answers to every question, told by a set of bits. -/
structure Holds (vector : FeatureVector) (set : Finset Nat) : Prop where
  /-- Its bits are those of the set. -/
  contains : ∀ bit, vector.contains bit = true ↔ bit ∈ set
  /-- It lists them in ascending order, none of them twice. -/
  bits : vector.bits = set.sort
  /-- Its bytes do not end in a zero. -/
  trimmed : vector.octets.getLast? ≠ some 0
  /-- It says that it is empty if it is. -/
  isEmpty : vector.isEmpty = true ↔ set = ∅
  /-- Its highest bit is the highest of the set. -/
  max? : ∀ bit, vector.max? = some bit ↔ IsGreatest (set : Set Nat) bit
  /-- It has no highest bit if it is empty. -/
  max?_none : vector.max? = none ↔ set = ∅
  /-- It has as many bytes as hold the highest bit. -/
  byteLength : ∀ bit, IsGreatest (set : Set Nat) bit → vector.byteLength = bit / 8 + 1
  /-- It has no bytes if it is empty. -/
  byteLength_empty : set = ∅ → vector.byteLength = 0
  /-- A feature is supported through either bit of its pair. -/
  supports : ∀ feature : Feature, vector.supports feature = true ↔
    2 * feature.number ∈ set ∨ 2 * feature.number + 1 ∈ set
  /-- A feature is required through the lower bit of its pair. -/
  requires : ∀ feature : Feature, vector.requires feature = true ↔ 2 * feature.number ∈ set
  /-- Features without a name are required through the lower bits of the pairs past the fourth. -/
  foreignRequirements :
    vector.foreignRequirements = (set.filter fun bit => bit % 2 = 0 ∧ 8 ≤ bit).sort

/-- A list in ascending order is `set.sort` for the set of its members. -/
theorem eq_sort_of_mem_iff {listed : List Nat} (ascending : listed.Pairwise (· < ·))
    (members : ∀ bit, bit ∈ listed ↔ bit ∈ set) : listed = set.sort := by
  refine ascending.eq_of_mem_iff (Finset.sortedLT_sort set).pairwise fun bit => ?_
  rw [members, Finset.mem_sort]

/-- A vector denotes `∅` if it has no bytes. -/
theorem Denotes.octets_eq_nil_iff (denotes : vector.Denotes set) :
    vector.octets = [] ↔ set = ∅ := by
  rw [← max?_eq_none_iff]
  constructor
  · intro none
    refine Finset.eq_empty_of_forall_notMem fun bit inside => ?_
    have one := (denotes bit).2 inside
    rw [contains_eq_bitAt, (max?_eq_none_iff vector).1 none,
      bitAt_of_length_le (Nat.zero_le _)] at one
    cases one
  · rintro rfl
    cases found : vector.max? with
    | none => rfl
    | some greatest =>
        exact absurd ((denotes greatest).1 (contains_of_max? found).1)
          (Finset.notMem_empty greatest)

/-- The highest bit of a vector is the highest of the set that it denotes: `IsGreatest set bit`. -/
theorem Denotes.max?_eq_some_iff (denotes : vector.Denotes set) :
    vector.max? = some bit ↔ IsGreatest (set : Set Nat) bit := by
  have highest {greatest : Nat} (found : vector.max? = some greatest) :
      IsGreatest (set : Set Nat) greatest := by
    obtain ⟨one, above⟩ := contains_of_max? found
    exact ⟨(denotes greatest).1 one, fun bit inside => above bit ((denotes bit).2 inside)⟩
  refine ⟨highest, fun greatest => ?_⟩
  cases found : vector.max? with
  | none =>
      have empty := denotes.octets_eq_nil_iff.1 ((max?_eq_none_iff vector).1 found)
      rw [empty] at greatest
      exact absurd greatest.1 (Finset.notMem_empty bit)
  | some other => rw [(highest found).unique greatest]

/-- **A vector answers every question as the set that it denotes**: `vector.Holds set`. -/
theorem Denotes.holds (denotes : vector.Denotes set) : vector.Holds set where
  contains := denotes
  bits := eq_sort_of_mem_iff vector.pairwise_bits fun bit =>
    (mem_bits vector bit).trans (denotes bit)
  trimmed := vector.trimmed
  isEmpty := List.isEmpty_iff.trans denotes.octets_eq_nil_iff
  max? := fun _ => denotes.max?_eq_some_iff
  max?_none := (max?_eq_none_iff vector).trans denotes.octets_eq_nil_iff
  byteLength := fun _ highest => byteLength_of_max? (denotes.max?_eq_some_iff.2 highest)
  byteLength_empty := fun none => List.length_eq_zero_iff.2 (denotes.octets_eq_nil_iff.2 none)
  supports := fun feature => by
    rw [FeatureVector.supports, Bool.or_eq_true, denotes, denotes, feature.requiredBit_eq,
      feature.optionalBit_eq]
  requires := fun feature => by
    rw [FeatureVector.requires, denotes, feature.requiredBit_eq]
  foreignRequirements := by
    refine eq_sort_of_mem_iff (vector.pairwise_bits.filter _) fun bit => ?_
    rw [FeatureVector.foreignRequirements, List.mem_filter, mem_bits, denotes, Finset.mem_filter,
      Bool.and_eq_true, decide_eq_true_iff, Option.isNone_iff_eq_none, Feature.ofBit?_eq_none_iff]

/-- Vectors are equal if they denote the same set: `vector = other ↔ set = others`. -/
theorem Denotes.eq_iff {others : Finset Nat} (denotes : vector.Denotes set)
    (denotes' : other.Denotes others) : vector = other ↔ set = others := by
  constructor
  · rintro rfl
    ext bit
    rw [← denotes, denotes']
  · rintro rfl
    refine eq_of_contains_eq fun bit => ?_
    rw [Bool.eq_iff_iff, denotes, denotes']

/-! ## Constructions and updates -/

/-- The ones of the number that a byte string writes, highest byte first: the bits of `ofBigEndian
bytes`. -/
def onesOf (bytes : Bytes) : Finset Nat :=
  (Finset.range (8 * bytes.length)).filter fun bit => (ofBigEndian bytes).testBit bit = true

/-- The bytes after a two-byte length, if there are so many. -/
def wireContent? : Bytes → Option Bytes
  | high :: low :: rest =>
      if ofBigEndian [high, low] ≤ rest.length then some (rest.take (ofBigEndian [high, low]))
      else none
  | _ => none

/-- What can be done to a vector: making another one in its place, or changing a bit. -/
inductive Step where
  /-- The empty vector. -/
  | empty
  /-- The vector of some bits. -/
  | ofBits (bits : List Nat)
  /-- The vector that a byte string writes. -/
  | ofBytes (bytes : Bytes)
  /-- The vector in front of a byte string, in its wire form. -/
  | decode (source : Bytes)
  /-- One bit more. -/
  | insert (bit : Nat)
  /-- One bit less. -/
  | erase (bit : Nat)

/-- What a step makes of a vector. Where `decode` finds no wire form the vector stays. -/
def Step.perform : Step → FeatureVector → FeatureVector
  | .empty, _ => FeatureVector.empty
  | .ofBits bits, _ => FeatureVector.ofBits bits
  | .ofBytes bytes, _ => FeatureVector.ofBytes bytes
  | .decode source, vector =>
      match decoder source with
      | .ok decoded _ => decoded
      | .error _ _ => vector
  | .insert bit, vector => vector.insert bit
  | .erase bit, vector => vector.erase bit

/-- What the same step makes of a set. -/
def Step.apply : Step → Finset Nat → Finset Nat
  | .empty, _ => ∅
  | .ofBits bits, _ => bits.toFinset
  | .ofBytes bytes, _ => onesOf bytes
  | .decode source, set =>
      match wireContent? source with
      | some content => onesOf content
      | none => set
  | .insert bit, set => Insert.insert bit set
  | .erase bit, set => set.erase bit

/-- The vector after some steps, the first one on `empty`. -/
def run (steps : List Step) : FeatureVector :=
  steps.foldl (fun vector step => step.perform vector) empty

/-- The set after the same steps, the first one on `∅`. -/
def setOf (steps : List Step) : Finset Nat :=
  steps.foldl (fun set step => step.apply set) ∅

/-- Bits past a byte string are not among its ones: `bit ∈ onesOf bytes` says no more than that the
bit is one. -/
theorem mem_onesOf (bytes : Bytes) (bit : Nat) :
    bit ∈ onesOf bytes ↔ (ofBigEndian bytes).testBit bit = true := by
  rw [onesOf, Finset.mem_filter, Finset.mem_range, and_iff_right_iff_imp]
  intro one
  by_contra past
  have small := ofBigEndian_lt bytes
  rw [byteStringCount, Nat.one_shiftLeft] at small
  rw [Nat.testBit_lt_two_pow
    (Nat.lt_of_lt_of_le small (Nat.pow_le_pow_right (by decide) (Nat.le_of_not_lt past)))] at one
  cases one

/-- The empty vector denotes the empty set. -/
theorem denotes_empty : empty.Denotes ∅ := by
  intro bit
  simp [contains_empty]

/-- The vector of a byte string denotes `onesOf bytes`. -/
theorem denotes_ofBytes (bytes : Bytes) : (ofBytes bytes).Denotes (onesOf bytes) := by
  intro bit
  rw [contains_ofBytes, mem_onesOf]

/-- The decoder takes the bytes after the length, if there are so many. -/
theorem decoder_of_wireContent? (source : Bytes) :
    match wireContent? source with
    | some content => ∃ rest, decoder source = .ok (ofBytes content) rest
    | none => ∃ cause rest, decoder source = .error cause rest := by
  match source with
  | [] | [_] => exact ⟨_, _, rfl⟩
  | high :: low :: rest =>
      -- Two bytes never write more than their number type holds.
      have size : (UInt16.ofNat (ofBigEndian [high, low])).toNat = ofBigEndian [high, low] :=
        UInt16.toNat_ofNat_of_lt' (ofBigEndian_lt [high, low])
      rw [wireContent?, decoder, map_eq_pure_bind, Decoder.bytes]
      simp only [bind_assoc]
      rw [Decoder.bind_of_ok (Decoder.u16_cons_cons high low rest), size]
      by_cases enough : ofBigEndian [high, low] ≤ rest.length
      · rw [if_pos enough]
        exact ⟨_, Decoder.bind_of_ok (Decoder.take_of_le_length enough)⟩
      · rw [if_neg enough]
        exact ⟨_, _, Decoder.bind_of_error (Decoder.take_of_length_lt (Nat.lt_of_not_le enough))⟩

/-- **One step keeps a vector and a set together**: `(step.perform vector).Denotes (step.apply
set)`. -/
theorem Denotes.perform (denotes : vector.Denotes set) (step : Step) :
    (step.perform vector).Denotes (step.apply set) := by
  cases step with
  | empty => exact denotes_empty
  | ofBits bits =>
      intro bit
      rw [Step.perform, contains_ofBits, decide_eq_true_iff, Step.apply, List.mem_toFinset]
  | ofBytes bytes => exact denotes_ofBytes bytes
  | decode source =>
      have decoded := decoder_of_wireContent? source
      rw [Step.perform, Step.apply]
      cases content : wireContent? source with
      | some content' =>
          rw [content] at decoded
          obtain ⟨rest, read⟩ := decoded
          rw [read]
          exact denotes_ofBytes content'
      | none =>
          rw [content] at decoded
          obtain ⟨cause, rest, failed⟩ := decoded
          rw [failed]
          exact denotes
  | insert added =>
      intro bit
      rw [Step.perform, contains_insert, Bool.or_eq_true, decide_eq_true_iff, denotes, Step.apply,
        Finset.mem_insert]
  | erase removed =>
      intro bit
      rw [Step.perform, contains_erase, Bool.and_eq_true, Bool.not_eq_true',
        decide_eq_false_iff_not, denotes, Step.apply, Finset.mem_erase]

/-- **Any number of steps keep a vector and a set together**: by `step.perform` and by `step.apply`,
one after the other. -/
theorem Denotes.foldl_perform (denotes : vector.Denotes set) (steps : List Step) :
    (steps.foldl (fun vector step => step.perform vector) vector).Denotes
      (steps.foldl (fun set step => step.apply set) set) := by
  induction steps generalizing vector set with
  | nil => exact denotes
  | cons step steps ih => exact ih (denotes.perform step)

/-- The vector after some steps denotes the set after them: `(run steps).Denotes (setOf steps)`. -/
theorem denotes_run (steps : List Step) : (run steps).Denotes (setOf steps) :=
  denotes_empty.foldl_perform steps

/-- **Feature vectors are finite sets of bits.** After any constructions and updates a vector
answers every question as the set after the same steps on sets, `(run steps).Holds (setOf steps)`,
and two vectors are equal if their sets are. -/
theorem run_holds (steps others : List Step) :
    (run steps).Holds (setOf steps) ∧ (run steps = run others ↔ setOf steps = setOf others) :=
  ⟨(denotes_run steps).holds, (denotes_run steps).eq_iff (denotes_run others)⟩

/-- Taking the highest bit out drops every byte down to the next one. -/
example : (run [.insert 3, .insert 20, .erase 20]).octets = [8] ∧
    run [.insert 3, .insert 20, .erase 20] = run [.decode [0, 2, 0, 8, 1]] := by
  decide

end FeatureVector

end PeerWire
