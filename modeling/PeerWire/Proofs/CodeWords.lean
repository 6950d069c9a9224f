import Mathlib.Algebra.Order.BigOperators.Group.List
import Mathlib.Algebra.Order.Ring.Nat
import Mathlib.Tactic.Ring
import Mathlib.Tactic.Tauto
import PeerWire.Proofs.DeflateFormat

/-! # The words of a code

A code that is given by its word lengths is built as a tree, filled from left to right. Its leaves
are the words that the format speaks of (`HuffmanCode.mem_leaves_ofLengths`). The tree is *packed*:
what stands left of a word leaves no bit string out, so that a word, read as a number, is the share
of the words before it. -/

namespace PeerWire.Deflate

/-! ## Numbers -/

/-- A number spelled in two parts, the low one first: `low + 2 ^ width * high`. -/
theorem ofBits_append (low high : List Bool) :
    ofBits (low ++ high) = ofBits low + 2 ^ low.length * ofBits high := by
  induction low with
  | nil => simp [ofBits]
  | cons bit low ih =>
      rw [List.cons_append, ofBits, ih, ofBits, List.length_cons, Nat.pow_succ]
      ring

/-- A number is below the power of two of its width: `ofBits bits < 2 ^ bits.length`. -/
theorem ofBits_lt (bits : List Bool) : ofBits bits < 2 ^ bits.length := by
  induction bits with
  | nil => exact Nat.one_pos
  | cons bit bits ih =>
      rw [ofBits, List.length_cons, Nat.pow_succ]
      have small := bit.toNat_lt
      omega

/-- A number of some width is spelled in one way. -/
theorem eq_of_ofBits_eq {bits others : List Bool} (long : bits.length = others.length)
    (same : ofBits bits = ofBits others) : bits = others := by
  induction bits generalizing others with
  | nil => exact (List.length_eq_zero_iff.1 long.symm).symm
  | cons bit bits ih =>
      obtain ⟨other, others, rfl⟩ := List.exists_cons_of_length_eq_add_one long.symm
      rw [ofBits, ofBits] at same
      have small := bit.toNat_lt
      have small' := other.toNat_lt
      have head : bit = other := by
        cases bit <;> cases other <;> simp at same ⊢ <;> omega
      rw [head, ih (Nat.succ.inj long) (by omega)]

/-- The low bits of a number spell what is left of it, `number % 2 ^ width`. -/
theorem ofBits_testBit (width number : Nat) :
    ofBits ((List.range width).map number.testBit) = number % (1 <<< width) := by
  induction width generalizing number with
  | zero => exact (Nat.mod_one number).symm
  | succ width ih =>
      have half : (number.testBit ∘ Nat.succ) = (number / 2).testBit := by
        funext place
        exact Nat.testBit_succ number place
      rw [List.range_succ_eq_map, List.map_cons, List.map_map, half, ofBits, ih, Nat.testBit_zero,
        Nat.shiftLeft_succ, Nat.mod_mul]
      rcases Nat.mod_two_eq_zero_or_one number with even | odd
      · simp [even]
      · simp [odd]

/-- The bits of a byte spell the byte, lowest first: `ofBits (byteBits byte) = byte.toNat`. -/
theorem ofBits_byteBits (byte : UInt8) : ofBits (byteBits byte) = byte.toNat := by
  have small : byte.toNat < 1 <<< 8 := byte.toNat_lt
  have spelled := ofBits_testBit 8 byte.toNat
  rw [Nat.mod_eq_of_lt small] at spelled
  exact spelled

/-- A symbol has one word. -/
theorem IsWord.unique {lengths : List Nat} {symbol : Nat} {word other : List Bool}
    (isWord : IsWord lengths symbol word) (isOther : IsWord lengths symbol other) :
    word = other := by
  obtain ⟨-, -, length, place⟩ := isWord
  obtain ⟨-, -, length', place'⟩ := isOther
  have long : word.length = other.length := Option.some.inj (length.symm.trans length')
  rw [← long] at place'
  have same : ofBits word.reverse = ofBits other.reverse :=
    Nat.eq_of_mul_eq_mul_right (Nat.two_pow_pos _) (place.trans place'.symm)
  exact List.reverse_injective (eq_of_ofBits_eq (by simpa using long) same)

/-! ## Packed trees -/

namespace CodeTree

/-- The words of a tree with their symbols, from left to right. -/
def leaves : CodeTree → List (List Bool × Nat)
  | .empty => []
  | .symbol value => [([], value)]
  | .node zero one =>
      zero.leaves.map (Prod.map (List.cons false) id) ++
        one.leaves.map (Prod.map (List.cons true) id)

/-- With one more bit in front, words at some depth are as long as they are at `depth + 1`. -/
theorem map_length_cons (depth : Nat) (bit : Bool) (words : List (List Bool × Nat)) :
    (words.map (Prod.map (List.cons bit) id)).map (Prod.map (depth + ·.length) id) =
      words.map (Prod.map (depth + 1 + ·.length) id) := by
  rw [List.map_map]
  refine List.map_congr_left fun word _ => Prod.ext ?_ rfl
  simp only [Function.comp_apply, Prod.map_fst, List.length_cons]
  omega

/-- The bit strings of `levels` bits that start with one of the words. -/
def room (levels : Nat) (words : List (List Bool × Nat)) : Nat :=
  (words.map fun word => 2 ^ (levels - word.1.length)).sum

/-- The room of two lists of words. -/
theorem room_append (levels : Nat) (words others : List (List Bool × Nat)) :
    room levels (words ++ others) = room levels words + room levels others := by
  rw [room, List.map_append, List.sum_append]
  rfl

/-- With one more bit in front of them and one more level, words have the same room: half as many
bit strings start with each, out of twice as many. -/
theorem room_map_cons (levels : Nat) (bit : Bool) (words : List (List Bool × Nat)) :
    room (levels + 1) (words.map (Prod.map (List.cons bit) id)) = room levels words := by
  simp [room, Function.comp_def]

/-- A tree of no more than some levels whose words take up the bit strings from left to right: the
place of a word is the `room` before it. -/
structure Packed (levels : Nat) (tree : CodeTree) : Prop where
  /-- No word is longer than the levels. -/
  short : ∀ word ∈ tree.leaves, word.1.length ≤ levels
  /-- A word, filled up with zeros, is the room of the words before it. -/
  place : ∀ before word after, tree.leaves = before ++ word :: after →
    ofBits word.1.reverse * 2 ^ (levels - word.1.length) = room levels before

/-- A tree without words is packed. -/
theorem packed_empty (levels : Nat) : Packed levels .empty where
  short word member := by cases member
  place before word after whole := by simp [leaves] at whole

/-- A single word without bits is packed. -/
theorem packed_symbol (levels value : Nat) : Packed levels (.symbol value) where
  short word member := by
    obtain rfl := List.mem_singleton.1 member
    exact Nat.zero_le levels
  place before word after whole := by
    obtain ⟨rfl, same⟩ | ⟨_, _, no⟩ := List.cons_eq_append_iff.1 whole
    · obtain ⟨rfl, -⟩ := List.cons.inj same
      simp [ofBits, room]
    · simp at no

/-- A member of two lists in a row is one of the second or one of the first. -/
theorem append_eq_append_cons {α : Type} {front back before after : List α} {value : α}
    (whole : front ++ back = before ++ value :: after) :
    (∃ rest, before = front ++ rest ∧ back = rest ++ value :: after) ∨
      ∃ rest, front = before ++ value :: rest := by
  rcases List.append_eq_append_iff.1 whole with ⟨rest, same, tail⟩ | ⟨_ | ⟨head, rest⟩, same, tail⟩
  · exact .inl ⟨rest, same, tail⟩
  · exact .inl ⟨[], by simpa using same.symm, tail.symm⟩
  · rw [(List.cons.inj tail).1]
    exact .inr ⟨rest, same⟩

/-- Two packed trees side by side are packed, if the left one has no room left where the right one
has words. The first bit of a word on the right stands for `2 ^ levels`. -/
theorem packed_node {levels : Nat} {zero one : CodeTree} (left : Packed levels zero)
    (right : Packed levels one) (full : one.leaves ≠ [] → room levels zero.leaves = 2 ^ levels) :
    Packed (levels + 1) (.node zero one) where
  short word member := by
    rcases List.mem_append.1 member with member | member
    · obtain ⟨below, inside, rfl⟩ := List.mem_map.1 member
      exact Nat.succ_le_succ (left.short below inside)
    · obtain ⟨below, inside, rfl⟩ := List.mem_map.1 member
      exact Nat.succ_le_succ (right.short below inside)
  place before word after whole := by
    rcases append_eq_append_cons whole with ⟨rest, rfl, back⟩ | ⟨rest, front⟩
    · obtain ⟨before', _, same, rfl, tail⟩ := List.map_eq_append_iff.1 back
      obtain ⟨below, after', rfl, rfl, rfl⟩ := List.map_eq_cons_iff.1 tail
      have long := right.short below (by rw [same]; simp)
      have filled := full (by rw [same]; simp)
      have placed := right.place before' below after' same
      -- Its first bit stands for the whole left half.
      have first : 2 ^ below.1.length * 2 ^ (levels - below.1.length) = 2 ^ levels := by
        rw [← Nat.pow_add, Nat.add_sub_cancel' long]
      rw [room_append, room_map_cons, room_map_cons, filled, ← placed]
      simp only [Prod.map_fst, List.reverse_cons, List.length_cons, Nat.add_sub_add_right,
        ofBits_append, List.length_reverse, ofBits, Bool.toNat_true]
      rw [Nat.mul_zero, Nat.add_zero, Nat.mul_one, Nat.add_mul, first, Nat.add_comm]
    · obtain ⟨before', _, same, rfl, tail⟩ := List.map_eq_append_iff.1 front
      obtain ⟨below, after', rfl, rfl, rfl⟩ := List.map_eq_cons_iff.1 tail
      have placed := left.place before' below after' same
      rw [room_map_cons, ← placed]
      simp [ofBits_append, ofBits]

/-- A tree at some depth holds the words in front, in their order, and leaves words over only if it
has no room left: what `fill levels depth words` makes. -/
structure Fills (levels depth : Nat) (words : List (Nat × Nat)) (tree : CodeTree)
    (spare : List (Nat × Nat)) : Prop where
  /-- The words of the tree stand in front of those left over. -/
  front : words = tree.leaves.map (Prod.map (depth + ·.length) id) ++ spare
  /-- The tree is packed. -/
  packed : Packed levels tree
  /-- What is left over found no room. -/
  full : spare ≠ [] → room levels tree.leaves = 2 ^ levels

/-- Without words there is nothing to hold. -/
theorem fills_nil (levels depth : Nat) : Fills levels depth [] .empty [] :=
  ⟨rfl, packed_empty levels, fun some => absurd rfl some⟩

/-- A word that is as long as the depth takes up the whole tree. -/
theorem fills_symbol (levels depth value : Nat) (rest : List (Nat × Nat)) :
    Fills levels depth ((depth, value) :: rest) (.symbol value) rest :=
  ⟨rfl, packed_symbol levels value, fun _ => by simp [leaves, room]⟩

/-- What the left tree leaves over goes into the right tree. -/
theorem Fills.node {levels depth : Nat} {words middle spare : List (Nat × Nat)}
    {zero one : CodeTree} (left : Fills levels (depth + 1) words zero middle)
    (right : Fills levels (depth + 1) middle one spare) :
    Fills (levels + 1) depth words (.node zero one) spare := by
  have needed (some : one.leaves ≠ [] ∨ spare ≠ []) : middle ≠ [] := by
    rw [right.front, Ne, List.append_eq_nil_iff, List.map_eq_nil_iff]
    tauto
  constructor
  · rw [leaves, List.map_append, map_length_cons, map_length_cons, List.append_assoc,
      ← right.front, ← left.front]
  · exact packed_node left.packed right.packed fun some => left.full (needed (.inl some))
  · intro some
    rw [leaves, room_append, room_map_cons, room_map_cons, left.full (needed (.inr some)),
      right.full some, Nat.pow_succ, Nat.mul_two]

/-- **Filling puts words in order from the left**, if shorter words come first: `fill` gives a tree
and the words left over as `Fills` says. -/
theorem fills_fill {levels depth : Nat} {words : List (Nat × Nat)}
    (ordered : words.Pairwise (·.1 ≤ ·.1))
    (within : ∀ word ∈ words, depth ≤ word.1 ∧ word.1 ≤ depth + levels) :
    Fills levels depth words (fill levels depth words).1 (fill levels depth words).2 := by
  induction levels generalizing depth words with
  | zero =>
      match words with
      | [] => exact fills_nil 0 depth
      | (length, value) :: rest =>
          obtain ⟨low, high⟩ := within (length, value) List.mem_cons_self
          obtain rfl : length = depth := Nat.le_antisymm high low
          rw [fill, if_pos rfl]
          exact fills_symbol 0 length value rest
  | succ levels ih =>
      match words with
      | [] => exact fills_nil (levels + 1) depth
      | (length, value) :: rest =>
          rw [fill]
          split
          · rename_i here
            subst here
            exact fills_symbol (levels + 1) length value rest
          · rename_i deeper
            -- All words are longer than the depth, since the first one is.
            have within' : ∀ word ∈ (length, value) :: rest,
                depth + 1 ≤ word.1 ∧ word.1 ≤ depth + 1 + levels := by
              intro word member
              have first := (within (length, value) List.mem_cons_self).1
              have bounds := within word member
              rcases List.mem_cons.1 member with rfl | member
              · omega
              · have := (List.pairwise_cons.1 ordered).1 word member
                omega
            have left := ih ordered within'
            rw [left.front] at ordered within'
            exact left.node (ih (List.pairwise_append.1 ordered).2.1
              fun word member => within' word (List.mem_append_right _ member))

end CodeTree

/-! ## Codes given by their lengths -/

namespace HuffmanCode

variable {lengths : List Nat}

/-- The words with their lengths and symbols are those of the symbols with a length from 1 to
`maxWordLength`. -/
theorem mem_wordOrder {length symbol : Nat} :
    (length, symbol) ∈ wordOrder lengths ↔
      (1 ≤ length ∧ length ≤ maxWordLength) ∧ lengths[symbol]? = some length := by
  simp only [wordOrder, List.mem_flatMap, List.mem_range, List.mem_filter, decide_eq_true_eq,
    List.mk_mem_zipIdx_iff_getElem?]
  constructor
  · rintro ⟨shorter, small, entry, rfl⟩
    exact ⟨⟨Nat.succ_pos _, small⟩, entry⟩
  · rintro ⟨⟨positive, small⟩, entry⟩
    exact ⟨length - 1, by omega, entry, by omega⟩

/-- Symbols are numbered in order. -/
theorem pairwise_zipIdx (lengths : List Nat) : lengths.zipIdx.Pairwise (·.2 < ·.2) := by
  rw [← List.pairwise_map, List.zipIdx_map_snd]
  exact List.pairwise_lt_range' 1

/-- Words are listed in the order of `Before`. -/
theorem pairwise_wordOrder (lengths : List Nat) : (wordOrder lengths).Pairwise Before := by
  rw [wordOrder, List.pairwise_flatMap]
  constructor
  · intro shorter _
    refine ((pairwise_zipIdx lengths).filter _).imp_of_mem fun member member' less => ?_
    have here := of_decide_eq_true (List.mem_filter.1 member).2
    have here' := of_decide_eq_true (List.mem_filter.1 member').2
    exact .inr ⟨here.trans here'.symm, less⟩
  · refine List.pairwise_lt_range.imp fun {first second} less word member word' member' => ?_
    have here := of_decide_eq_true (List.mem_filter.1 member).2
    have here' := of_decide_eq_true (List.mem_filter.1 member').2
    exact .inl (by omega)

/-- The listed words are those with a length from 1 to `maxWordLength`, in another order. -/
theorem perm_wordOrder (lengths : List Nat) :
    (wordOrder lengths).Perm
      (lengths.zipIdx.filter fun word => 1 ≤ word.1 ∧ word.1 ≤ maxWordLength) := by
  have distinct : (wordOrder lengths).Nodup :=
    (pairwise_wordOrder lengths).imp fun {word other} less same => by
      subst same
      rcases less with less | ⟨-, less⟩ <;> exact Nat.lt_irrefl _ less
  have distinct' : lengths.zipIdx.Nodup :=
    (pairwise_zipIdx lengths).imp fun {word other} less same => by
      subst same
      exact Nat.lt_irrefl _ less
  refine (List.perm_ext_iff_of_nodup distinct (distinct'.filter _)).2 fun ⟨length, symbol⟩ => ?_
  rw [mem_wordOrder, List.mem_filter, List.mk_mem_zipIdx_iff_getElem?, decide_eq_true_eq, and_comm]

/-- The bit strings that start with one of the listed words, out of `2 ^ 15`. -/
def size (words : List (Nat × Nat)) : Nat :=
  (words.map fun word => 2 ^ (maxWordLength - word.1)).sum

/-- Two lists of words take up the bit strings of both. -/
theorem size_append (words others : List (Nat × Nat)) :
    size (words ++ others) = size words + size others := by
  rw [size, List.map_append, List.sum_append]
  rfl

/-- Words of a tree take up as many bit strings as their lengths: `size` on lengths is `room` on
words. -/
theorem size_map_length (words : List (List Bool × Nat)) :
    size (words.map (Prod.map List.length id)) = CodeTree.room maxWordLength words := by
  rw [size, List.map_map]
  rfl

/-- The share of the lengths of some words. -/
theorem share_map_fst (words : List (Nat × Nat)) :
    share (words.map Prod.fst) = size (words.filter (·.1 ≠ 0)) := by
  rw [share, List.filter_map, List.map_map]
  rfl

/-- Words in another order take up as much. -/
theorem size_perm {words others : List (Nat × Nat)} (perm : words.Perm others) :
    size words = size others :=
  (perm.map _).sum_nat

/-- The words listed before a word take up the share of the lengths before it, `share (earlier
lengths length symbol)`. -/
theorem size_eq_share {before after : List (Nat × Nat)} {length symbol : Nat}
    (whole : wordOrder lengths = before ++ (length, symbol) :: after) :
    size before = share (earlier lengths length symbol) := by
  have ordered := pairwise_wordOrder lengths
  have here : (length, symbol) ∈ wordOrder lengths := by
    rw [whole]
    simp
  have small := (mem_wordOrder.1 here).1.2
  -- The list is in order, so the words before this one are all those that come before it.
  have front : before = (wordOrder lengths).filter (Before · (length, symbol)) := by
    rw [whole] at ordered ⊢
    obtain ⟨-, later, across⟩ := List.pairwise_append.1 ordered
    rw [List.filter_append, List.filter_eq_self.2, List.filter_eq_nil_iff.2, List.append_nil]
    · rintro word member
      rw [decide_eq_true_eq]
      rintro (less | ⟨same, less⟩) <;> rcases List.mem_cons.1 member with rfl | member
      · exact Nat.lt_irrefl _ less
      · rcases (List.pairwise_cons.1 later).1 word member with less' | ⟨same', less'⟩ <;>
          simp only at less less' <;> omega
      · exact Nat.lt_irrefl _ less
      · rcases (List.pairwise_cons.1 later).1 word member with less' | ⟨same', less'⟩ <;>
          simp only at less less' same <;> omega
    · intro word member
      exact decide_eq_true (across word member _ List.mem_cons_self)
  rw [front, earlier, share_map_fst, size_perm ((perm_wordOrder lengths).filter _),
    List.filter_filter, List.filter_filter]
  refine congrArg size (List.filter_congr fun word member => ?_)
  rw [Bool.eq_iff_iff]
  simp only [Bool.and_eq_true, decide_eq_true_eq]
  unfold Before
  omega

/-- The listed words take up no more than all lengths together: `size (wordOrder lengths) ≤ share
lengths`. -/
theorem size_wordOrder_le (lengths : List Nat) : size (wordOrder lengths) ≤ share lengths := by
  have all : share lengths = size (lengths.zipIdx.filter (·.1 ≠ 0)) := by
    rw [← share_map_fst, List.zipIdx_map_fst]
  rw [all, size_perm (perm_wordOrder lengths)]
  refine List.Sublist.sum_le_sum (List.Sublist.map _ (List.monotone_filter_right _ ?_))
    fun _ _ => Nat.zero_le _
  intro word inside
  have := of_decide_eq_true inside
  exact decide_eq_true (by omega)

/-- The words of a code with their symbols, from left to right. -/
def leaves (code : HuffmanCode) : List (List Bool × Nat) :=
  (CodeTree.node code.zero code.one).leaves

/-- Both halves of a code are filled as one tree, of `maxWordLength` levels from depth 0 on. -/
theorem leaves_ofLengths (lengths : List Nat) :
    (ofLengths lengths).leaves =
      (CodeTree.fill maxWordLength 0 (wordOrder lengths)).1.leaves := by
  rw [leaves, ofLengths]
  match order : wordOrder lengths with
  | [] => rfl
  | (length, symbol) :: rest =>
      have positive : length ≠ 0 := by
        have here : (length, symbol) ∈ wordOrder lengths := by
          rw [order]
          simp
        have := (mem_wordOrder.1 here).1.1
        omega
      rw [show maxWordLength = maxWordLength - 1 + 1 from rfl, CodeTree.fill, if_neg positive]
      rfl

/-- Where the words have room, the tree of a code holds them all: its leaves have the lengths and
symbols of `wordOrder lengths`. -/
theorem exists_packed_tree (fits : share lengths ≤ 2 ^ maxWordLength) :
    ∃ tree : CodeTree, (ofLengths lengths).leaves = tree.leaves ∧ tree.Packed maxWordLength ∧
      wordOrder lengths = tree.leaves.map (Prod.map List.length id) := by
  have ordered : (wordOrder lengths).Pairwise (·.1 ≤ ·.1) := by
    refine (pairwise_wordOrder lengths).imp fun less => ?_
    rcases less with less | ⟨same, -⟩
    · exact Nat.le_of_lt less
    · exact Nat.le_of_eq same
  have within : ∀ word ∈ wordOrder lengths, 0 ≤ word.1 ∧ word.1 ≤ 0 + maxWordLength := by
    intro ⟨length, symbol⟩ member
    have := (mem_wordOrder.1 member).1
    exact ⟨Nat.zero_le _, by omega⟩
  obtain ⟨front, packed, full⟩ := CodeTree.fills_fill ordered within
  refine ⟨_, leaves_ofLengths lengths, packed, ?_⟩
  simp only [Nat.zero_add] at front
  -- Words left over would need room that the tree does not leave.
  match spare : (CodeTree.fill maxWordLength 0 (wordOrder lengths)).2 with
  | [] => rwa [spare, List.append_nil] at front
  | word :: rest =>
      have most := Nat.le_trans (size_wordOrder_le lengths) fits
      have positive := Nat.two_pow_pos (maxWordLength - word.1)
      rw [spare] at front full
      rw [front, size_append, size_map_length, full (List.cons_ne_nil word rest), size,
        List.map_cons, List.sum_cons] at most
      omega

/-- **The leaves of a code are its words**, as the format has them: `(word, symbol)` is a leaf of
`ofLengths lengths` just where `IsWord lengths symbol word`. -/
theorem mem_leaves_ofLengths (fits : share lengths ≤ 2 ^ maxWordLength) {word : List Bool}
    {symbol : Nat} :
    (word, symbol) ∈ (ofLengths lengths).leaves ↔ IsWord lengths symbol word := by
  obtain ⟨tree, same, packed, front⟩ := exists_packed_tree fits
  rw [same]
  have isWord {word : List Bool} {symbol : Nat} (member : (word, symbol) ∈ tree.leaves) :
      IsWord lengths symbol word := by
    obtain ⟨before, after, split⟩ := List.append_of_mem member
    have whole : wordOrder lengths = before.map (Prod.map List.length id) ++
        (word.length, symbol) :: after.map (Prod.map List.length id) := by
      rw [front, split, List.map_append, List.map_cons]
      rfl
    have here : (word.length, symbol) ∈ wordOrder lengths := by
      rw [whole]
      simp
    obtain ⟨⟨positive, small⟩, entry⟩ := mem_wordOrder.1 here
    refine ⟨List.ne_nil_of_length_pos positive, small, entry, ?_⟩
    rw [packed.place before (word, symbol) after split, ← size_map_length, size_eq_share whole]
  constructor
  · exact isWord
  · intro given
    have ⟨nonempty, small, entry, _⟩ := given
    have here := mem_wordOrder.2 ⟨⟨List.length_pos_iff.2 nonempty, small⟩, entry⟩
    rw [front] at here
    -- Some word of the tree is as long, and a symbol has only one word.
    obtain ⟨⟨other, symbol⟩, member, same⟩ := List.mem_map.1 here
    obtain ⟨-, rfl⟩ := Prod.mk.inj same
    rw [IsWord.unique given (isWord member)]
    exact member

/-- The last of the words with the lengths `3, 3, 3, 3, 3, 2, 4, 4` has ones only. -/
example : ([true, true, true, true], 7) ∈ (ofLengths [3, 3, 3, 3, 3, 2, 4, 4]).leaves := by
  decide

end HuffmanCode

end PeerWire.Deflate
