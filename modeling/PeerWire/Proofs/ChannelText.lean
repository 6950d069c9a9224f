import Mathlib.Order.WellFounded
import PeerWire.Proofs.Numerals
import PeerWire.Proofs.Packing

/-! # Short channel ids as text

The text form of a short channel id has a grammar: three numerals of numbers that have room in the
parts of an id, with an `x` between them. Exactly the texts of the grammar are read, as the ids
that pack these numbers, and any other text is refused for the first of the failures that applies
to it, where the ranges of the parts come after all the parts have been read
(`ShortChannelId.parse_eq_error_iff`). Every id is read back from the text in which it is shown, and
a text that is read is shown again if its numerals are those that are printed
(`ShortChannelId.toText_eq_iff`). -/

namespace PeerWire.ShortChannelId

open Text (Numeral Plain)

variable {text : String} {id : ShortChannelId} {failure other : ParseFailure}
  {heightPart indexPart outputPart : List Char} {height index output : Nat}

/-! ## Parts -/

/-- A text has three parts, with an `x` between them and no `x` in them. -/
def Parted (text : String) (height index output : List Char) : Prop :=
  text.toList = height ++ 'x' :: (index ++ 'x' :: output) ∧
    'x' ∉ height ∧ 'x' ∉ index ∧ 'x' ∉ output

/-- A text has the parts that `Text.pieces` cuts it into, if they are three. -/
theorem parted_iff :
    Parted text heightPart indexPart outputPart ↔
      Text.pieces 'x' text.toList = [heightPart, indexPart, outputPart] := by
  rw [Text.pieces_eq_iff]
  simp [Parted, List.intercalate, and_comm]

/-- A text has three parts in one way. -/
theorem Parted.unique {heightPart' indexPart' outputPart' : List Char}
    (parted : Parted text heightPart indexPart outputPart)
    (parted' : Parted text heightPart' indexPart' outputPart') :
    heightPart = heightPart' ∧ indexPart = indexPart' ∧ outputPart = outputPart' := by
  have same := (parted_iff.1 parted).symm.trans (parted_iff.1 parted')
  simpa using same

/-- The three parts of a text are numerals of a height and two indices. -/
def Writes (text : String) (height index output : Nat) : Prop :=
  ∃ heightPart indexPart outputPart, Parted text heightPart indexPart outputPart ∧
    Numeral heightPart height ∧ Numeral indexPart index ∧ Numeral outputPart output

/-- A packed location without the bits of its types is the sum of its parts: `height * 2 ^ 40 +
index * 2 ^ 16 + output`. -/
theorem toNat_ofParts_ofNat (low : height < 2 ^ 24) (early : index < 2 ^ 24)
    (small : output < 2 ^ 16) :
    (ofParts (UInt32.ofNat height) (UInt32.ofNat index) (UInt16.ofNat output)).packed.toNat =
      height * 2 ^ 40 + index * 2 ^ 16 + output := by
  have height_eq : (UInt32.ofNat height).toNat = height :=
    UInt32.toNat_ofNat_of_lt' (Nat.lt_trans low (by decide))
  have index_eq : (UInt32.ofNat index).toNat = index :=
    UInt32.toNat_ofNat_of_lt' (Nat.lt_trans early (by decide))
  have output_eq : (UInt16.ofNat output).toNat = output := UInt16.toNat_ofNat_of_lt' small
  rw [toNat_ofParts, height_eq, index_eq, output_eq, Nat.mod_eq_of_lt low,
    Nat.mod_eq_of_lt early, Nat.add_assoc]

/-! ## Failures -/

/-- A part is the numeral of a `number < limit`. -/
def Within (limit : Nat) (part : List Char) : Prop := ∃ number < limit, Numeral part number

/-- What a failure says of a text. -/
def ParseFailure.Applies (text : String) : ParseFailure → Prop
  | .parts => ¬∃ height index output, Parted text height index output
  | .height => ∃ height index output, Parted text height index output ∧ ¬Within (2 ^ 32) height
  | .index => ∃ height index output, Parted text height index output ∧ ¬Within (2 ^ 32) index
  | .output => ∃ height index output, Parted text height index output ∧ ¬Within (2 ^ 16) output
  | .heightRange => ∃ height index output number,
      Parted text height index output ∧ Numeral height number ∧ 2 ^ 24 ≤ number
  | .indexRange => ∃ height index output number,
      Parted text height index output ∧ Numeral index number ∧ 2 ^ 24 ≤ number

/-- The order in which failures count. -/
def ParseFailure.rank : ParseFailure → Nat
  | .parts => 0
  | .height => 1
  | .index => 2
  | .output => 3
  | .heightRange => 4
  | .indexRange => 5

/-- A failure is the first that applies to a text: all others that do have a higher `rank`. -/
def ParseFailure.First (text : String) (failure : ParseFailure) : Prop :=
  failure.Applies text ∧ ∀ other : ParseFailure, other.Applies text → failure.rank ≤ other.rank

/-- A failure that comes before the first one does not apply. -/
theorem ParseFailure.First.not_applies (first : failure.First text)
    (earlier : other.rank < failure.rank) : ¬other.Applies text :=
  fun applies => Nat.not_le_of_lt earlier (first.2 other applies)

/-- A text writes a location that has room, or there is a first failure that applies to it. -/
theorem exists_first_or_writes (text : String) :
    (∃ failure : ParseFailure, failure.First text) ∨
      ∃ height < 2 ^ 24, ∃ index < 2 ^ 24, ∃ output < 2 ^ 16, Writes text height index output := by
  by_cases refused : ∃ failure : ParseFailure, failure.Applies text
  · left
    -- Of the failures that apply, one has the least rank.
    obtain ⟨failure, applies, least⟩ :=
      (measure ParseFailure.rank).wf.has_min {failure | failure.Applies text} refused
    exact ⟨failure, applies, fun other also => Nat.le_of_not_lt (least other also)⟩
  · right
    have clear : ∀ failure : ParseFailure, ¬failure.Applies text := not_exists.1 refused
    obtain ⟨heightPart, indexPart, outputPart, parted⟩ := not_not.1 (clear .parts)
    obtain ⟨height, -, isHeight⟩ : Within (2 ^ 32) heightPart :=
      not_not.1 fun out => clear .height ⟨_, _, _, parted, out⟩
    obtain ⟨index, -, isIndex⟩ : Within (2 ^ 32) indexPart :=
      not_not.1 fun out => clear .index ⟨_, _, _, parted, out⟩
    obtain ⟨output, small, isOutput⟩ : Within (2 ^ 16) outputPart :=
      not_not.1 fun out => clear .output ⟨_, _, _, parted, out⟩
    have low : height < 2 ^ 24 :=
      Nat.lt_of_not_le fun large => clear .heightRange ⟨_, _, _, _, parted, isHeight, large⟩
    have early : index < 2 ^ 24 :=
      Nat.lt_of_not_le fun large => clear .indexRange ⟨_, _, _, _, parted, isIndex, large⟩
    exact ⟨height, low, index, early, output, small, _, _, _, parted, isHeight, isIndex, isOutput⟩

/-! ## Reading -/

/-- Once all parts have been read their ranges decide. -/
theorem parse_of_reads (parted : Parted text heightPart indexPart outputPart)
    (readHeight : Text.parseBelow? UInt32.size heightPart = some height)
    (readIndex : Text.parseBelow? UInt32.size indexPart = some index)
    (readOutput : Text.parseBelow? UInt16.size outputPart = some output) :
    parse text =
      if height ≥ indexBound then .error .heightRange
      else if index ≥ indexBound then .error .indexRange
      else .ok (ofParts (UInt32.ofNat height) (UInt32.ofNat index) (UInt16.ofNat output)) := by
  rw [parse, parted_iff.1 parted]
  simp only [readHeight, readIndex, readOutput]

/-- A location that has room is read from the texts that write it. -/
theorem parse_of_writes (low : height < 2 ^ 24) (early : index < 2 ^ 24) (small : output < 2 ^ 16)
    (writes : Writes text height index output) :
    parse text =
      .ok (ofParts (UInt32.ofNat height) (UInt32.ofNat index) (UInt16.ofNat output)) := by
  obtain ⟨heightPart, indexPart, outputPart, parted, isHeight, isIndex, isOutput⟩ := writes
  have readHeight : Text.parseBelow? UInt32.size heightPart = some height :=
    Text.parseBelow?_eq_some_iff.2 ⟨isHeight, Nat.lt_trans low (by decide)⟩
  have readIndex : Text.parseBelow? UInt32.size indexPart = some index :=
    Text.parseBelow?_eq_some_iff.2 ⟨isIndex, Nat.lt_trans early (by decide)⟩
  have readOutput : Text.parseBelow? UInt16.size outputPart = some output :=
    Text.parseBelow?_eq_some_iff.2 ⟨isOutput, small⟩
  have lowBound : ¬height ≥ indexBound := Nat.not_le_of_lt low
  have earlyBound : ¬index ≥ indexBound := Nat.not_le_of_lt early
  rw [parse_of_reads parted readHeight readIndex readOutput, if_neg lowBound, if_neg earlyBound]

/-- A part is read if the failure to read it comes before the first one that applies. -/
theorem ParseFailure.First.reads {limit : Nat} {part : List Char} (first : failure.First text)
    (other : ParseFailure) (earlier : other.rank < failure.rank)
    (refuses : ¬Within limit part → other.Applies text) :
    ∃ number, Text.parseBelow? limit part = some number := by
  obtain ⟨number, below, numeral⟩ : Within limit part :=
    not_not.1 fun out => first.not_applies earlier (refuses out)
  exact ⟨number, Text.parseBelow?_eq_some_iff.2 ⟨numeral, below⟩⟩

section First

variable (first : failure.First text) (parted : Parted text heightPart indexPart outputPart)

include first parted

/-- Before a later failure, `1 < failure.rank`, the height has been read. -/
theorem exists_readHeight (later : 1 < failure.rank) :
    ∃ height, Text.parseBelow? UInt32.size heightPart = some height :=
  first.reads .height later fun out => ⟨_, _, _, parted, out⟩

/-- Before a later failure, `2 < failure.rank`, the index of the transaction has been read. -/
theorem exists_readIndex (later : 2 < failure.rank) :
    ∃ index, Text.parseBelow? UInt32.size indexPart = some index :=
  first.reads .index later fun out => ⟨_, _, _, parted, out⟩

/-- Before a later failure, `3 < failure.rank`, the index of the output has been read. -/
theorem exists_readOutput (later : 3 < failure.rank) :
    ∃ output, Text.parseBelow? UInt16.size outputPart = some output :=
  first.reads .output later fun out => ⟨_, _, _, parted, out⟩

end First

/-- A text is refused for the first failure that applies to it: `parse text = .error failure`. -/
theorem parse_of_first (first : failure.First text) : parse text = .error failure := by
  have applies := first.1
  cases failure with
  | parts =>
      unfold parse
      split
      · rename_i heightPart indexPart outputPart cut
        exact absurd ⟨_, _, _, parted_iff.2 cut⟩ applies
      · rfl
  | height =>
      obtain ⟨heightPart, indexPart, outputPart, parted, out⟩ := applies
      have unread : Text.parseBelow? UInt32.size heightPart = none :=
        Text.parseBelow?_eq_none_iff.2 out
      rw [parse, parted_iff.1 parted]
      simp only [unread]
  | index =>
      obtain ⟨heightPart, indexPart, outputPart, parted, out⟩ := applies
      obtain ⟨height, readHeight⟩ := exists_readHeight first parted (by decide)
      have unread : Text.parseBelow? UInt32.size indexPart = none :=
        Text.parseBelow?_eq_none_iff.2 out
      rw [parse, parted_iff.1 parted]
      simp only [readHeight, unread]
  | output =>
      obtain ⟨heightPart, indexPart, outputPart, parted, out⟩ := applies
      obtain ⟨height, readHeight⟩ := exists_readHeight first parted (by decide)
      obtain ⟨index, readIndex⟩ := exists_readIndex first parted (by decide)
      have unread : Text.parseBelow? UInt16.size outputPart = none :=
        Text.parseBelow?_eq_none_iff.2 out
      rw [parse, parted_iff.1 parted]
      simp only [readHeight, readIndex, unread]
  | heightRange =>
      obtain ⟨heightPart, indexPart, outputPart, number, parted, isHeight, large⟩ := applies
      obtain ⟨height, readHeight⟩ := exists_readHeight first parted (by decide)
      obtain ⟨index, readIndex⟩ := exists_readIndex first parted (by decide)
      obtain ⟨output, readOutput⟩ := exists_readOutput first parted (by decide)
      -- The number that is too large is the one that was read.
      obtain rfl := isHeight.unique (Text.parseBelow?_eq_some_iff.1 readHeight).1
      have tooHigh : number ≥ indexBound := large
      rw [parse_of_reads parted readHeight readIndex readOutput, if_pos tooHigh]
  | indexRange =>
      obtain ⟨heightPart, indexPart, outputPart, number, parted, isIndex, large⟩ := applies
      obtain ⟨height, readHeight⟩ := exists_readHeight first parted (by decide)
      obtain ⟨index, readIndex⟩ := exists_readIndex first parted (by decide)
      obtain ⟨output, readOutput⟩ := exists_readOutput first parted (by decide)
      obtain rfl := isIndex.unique (Text.parseBelow?_eq_some_iff.1 readIndex).1
      have low : ¬height ≥ indexBound := by
        have passed : ¬ParseFailure.Applies text .heightRange := first.not_applies (by decide)
        exact fun tooHigh => passed
          ⟨_, _, _, _, parted, (Text.parseBelow?_eq_some_iff.1 readHeight).1, tooHigh⟩
      have tooLate : number ≥ indexBound := large
      rw [parse_of_reads parted readHeight readIndex readOutput, if_neg low, if_pos tooLate]

/-- **The ids that are read are the packed locations that texts write**, `height * 2 ^ 40 + index *
2 ^ 16 + output`, each from the texts that write it. -/
theorem parse_eq_ok_iff :
    parse text = .ok id ↔
      ∃ height < 2 ^ 24, ∃ index < 2 ^ 24, ∃ output < 2 ^ 16, Writes text height index output ∧
        id.packed.toNat = height * 2 ^ 40 + index * 2 ^ 16 + output := by
  constructor
  · intro read
    rcases exists_first_or_writes text with ⟨failure, first⟩ | written
    · rw [parse_of_first first] at read
      cases read
    · obtain ⟨height, low, index, early, output, small, writes⟩ := written
      rw [parse_of_writes low early small writes] at read
      cases read
      exact ⟨height, low, index, early, output, small, writes,
        toNat_ofParts_ofNat low early small⟩
  · rintro ⟨height, low, index, early, output, small, writes, packed⟩
    rw [← toNat_ofParts_ofNat low early small] at packed
    obtain ⟨bits⟩ := id
    obtain rfl := UInt64.toNat_inj.1 packed
    exact parse_of_writes low early small writes

/-- **A text is refused for the first failure that applies to it**, and for no other: `failure.First
text`. -/
theorem parse_eq_error_iff : parse text = .error failure ↔ failure.First text := by
  constructor
  · intro refused
    rcases exists_first_or_writes text with ⟨failure', first⟩ | written
    · rw [parse_of_first first] at refused
      cases refused
      exact first
    · obtain ⟨height, low, index, early, output, small, writes⟩ := written
      rw [parse_of_writes low early small writes] at refused
      cases refused
  · exact parse_of_first

/-- The height is out of range, but an output index that is none counts before that. -/
example : parse "16777216x1x65536" = .error .output := by decide

/-! ## Showing -/

/-- The characters of the text form: `Nat.toDigits 10` of the parts, with an `x` between them. -/
theorem toList_toText (id : ShortChannelId) :
    id.toText.toList = Nat.toDigits 10 id.height.toNat ++ 'x' ::
      (Nat.toDigits 10 id.index.toNat ++ 'x' :: Nat.toDigits 10 id.output.toNat) := by
  have separator : (toString "x").toList = ['x'] := rfl
  simp [toText, separator]

/-- The text form writes the parts of an id. -/
theorem parted_toText (id : ShortChannelId) :
    Parted id.toText (Nat.toDigits 10 id.height.toNat) (Nat.toDigits 10 id.index.toNat)
      (Nat.toDigits 10 id.output.toNat) := by
  have clean (number : Nat) : 'x' ∉ Nat.toDigits 10 number :=
    (Text.numeral_toDigits number).not_mem (by decide) (by decide)
  exact ⟨toList_toText id, clean _, clean _, clean _⟩

/-- **An id is read back from the text in which it is shown**: `parse id.toText = .ok id`. -/
theorem parse_toText (id : ShortChannelId) : parse id.toText = .ok id := by
  have wide : id.packed.toNat < 2 ^ 64 := id.packed.toNat_lt
  have height := toNat_height id
  have index := toNat_index id
  have output := toNat_output id
  refine parse_eq_ok_iff.2 ⟨id.height.toNat, by omega, id.index.toNat, by omega, id.output.toNat,
    id.output.toNat_lt, ⟨_, _, _, parted_toText id, Text.numeral_toDigits _,
      Text.numeral_toDigits _, Text.numeral_toDigits _⟩, by omega⟩

/-- **A text that is read is shown again if its numerals are those that are printed**: no part has a
plus sign or a leading zero too many, so that each is `Plain`. -/
theorem toText_eq_iff (read : parse text = .ok id)
    (parted : Parted text heightPart indexPart outputPart) :
    id.toText = text ↔ Plain heightPart ∧ Plain indexPart ∧ Plain outputPart := by
  obtain ⟨height, low, index, early, output, small, writes, packed⟩ := parse_eq_ok_iff.1 read
  obtain ⟨_, _, _, parted', isHeight, isIndex, isOutput⟩ := writes
  obtain ⟨rfl, rfl, rfl⟩ := parted.unique parted'
  obtain ⟨height_eq, index_eq, output_eq⟩ :
      id.height.toNat = height ∧ id.index.toNat = index ∧ id.output.toNat = output := by
    rw [toNat_height, toNat_index, toNat_output, packed]
    omega
  -- What is shown has its parts, and so has the text, so that they can be compared part by part.
  have shown := parted_toText id
  rw [height_eq, index_eq, output_eq] at shown
  rw [← isHeight.eq_toDigits_iff, ← isIndex.eq_toDigits_iff, ← isOutput.eq_toDigits_iff]
  constructor
  · rintro rfl
    exact parted.unique shown
  · rintro ⟨same, same', same''⟩
    apply String.toList_inj.1
    rw [shown.1, parted.1, same, same', same'']

/-- **The text form has an exact grammar.** `parse text` gives an id for the texts that write its
parts and for no others, and any other text is refused for the first failure that applies to it.
Every id is read back from the text in which it is shown, `parse id.toText = .ok id`, and a text
that is read is shown again if none of its parts has a plus sign or a leading zero too many. -/
theorem text_grammar :
    (∀ text id, parse text = .ok id ↔
      ∃ height < 2 ^ 24, ∃ index < 2 ^ 24, ∃ output < 2 ^ 16, Writes text height index output ∧
        id.packed.toNat = height * 2 ^ 40 + index * 2 ^ 16 + output) ∧
    (∀ text failure, parse text = .error failure ↔ failure.First text) ∧
    (∀ id : ShortChannelId, parse id.toText = .ok id) ∧
    ∀ text id height index output, parse text = .ok id → Parted text height index output →
      (id.toText = text ↔ Plain height ∧ Plain index ∧ Plain output) :=
  ⟨fun _ _ => parse_eq_ok_iff, fun _ _ => parse_eq_error_iff, parse_toText,
    fun _ _ _ _ _ => toText_eq_iff⟩

/-- A text with a sign and a leading zero is read as an id that is shown without them. -/
theorem text_grammar_signed :
    parse "+1x02x3" = .ok ⟨1099511758851⟩ ∧ Parted "+1x02x3" ['+', '1'] ['0', '2'] ['3'] ∧
      ShortChannelId.toText ⟨1099511758851⟩ ≠ "+1x02x3" := by
  have read : parse "+1x02x3" = .ok ⟨1099511758851⟩ := by decide
  have parted : Parted "+1x02x3" ['+', '1'] ['0', '2'] ['3'] := by
    refine ⟨rfl, ?_⟩
    decide
  refine ⟨read, parted, fun same => ?_⟩
  have plain := (text_grammar.2.2.2 _ _ _ _ _ read parted).1 same
  exact plain.1.1 List.mem_cons_self

end PeerWire.ShortChannelId
