import PeerWire.Text.Decimal
import PeerWire.Text.Number
import PeerWire.Text.Pieces

/-! # Numerals in text

The text forms of several numbers are taken apart at their separators and then read number by
number. Cutting is the inverse of putting separators between pieces (`Text.pieces_eq_iff`). A
number is read from its numerals and from no other text (`Text.parseBelow?_eq_some_iff`): it has
many, with a plus sign or with leading zeros, and the one without either is the one in which it is
printed (`Text.Numeral.eq_toDigits_iff`). -/

namespace PeerWire.Text

/-! ## Pieces -/

section Pieces

variable {separator : Char} {text piece : List Char} {parts : List (List Char)}

/-- A text is cut where it is split: `pieces separator text = text.splitOn separator`. -/
theorem pieces_eq_splitOn (separator : Char) (text : List Char) :
    pieces separator text = text.splitOn separator := by
  induction text with
  | nil => rfl
  | cons c text ih =>
      rw [List.splitOn_cons_eq_if_modifyHead, ← ih]
      by_cases same : c = separator
      · rw [if_pos (beq_iff_eq.2 same)]
        exact if_pos same
      · rw [if_neg (mt beq_iff_eq.1 same)]
        refine (if_neg same).trans ?_
        -- There is a piece before the first separator, if only an empty one.
        have nonempty : pieces separator text ≠ [] := by
          rw [ih]
          exact List.splitOn_ne_nil _ _
        obtain ⟨part, rest, parts⟩ := List.exists_cons_of_ne_nil nonempty
        rw [parts]
        unfold pieces at parts
        rw [parts]
        rfl

/-- No separator is left in a piece: `separator ∉ piece`. -/
theorem not_mem_of_mem_pieces (member : piece ∈ pieces separator text) : separator ∉ piece := by
  induction text generalizing piece with
  | nil =>
      obtain rfl := List.mem_singleton.1 member
      exact List.not_mem_nil
  | cons c text ih =>
      rw [pieces_eq_splitOn, List.splitOn_cons_eq_if_modifyHead, ← pieces_eq_splitOn] at member
      split at member
      · rcases List.mem_cons.1 member with rfl | member
        · exact List.not_mem_nil
        · exact ih member
      · rename_i other
        cases parts : pieces separator text with
        | nil =>
            rw [parts] at member
            exact absurd member List.not_mem_nil
        | cons part rest =>
            rw [parts] at member ih
            rcases List.mem_cons.1 member with rfl | member
            · rw [List.mem_cons, not_or]
              exact ⟨fun same => other (beq_iff_eq.2 same.symm), ih List.mem_cons_self⟩
            · exact ih (List.mem_cons_of_mem _ member)

/-- **Cutting is the inverse of putting separators between pieces**, `[separator].intercalate
parts`. -/
theorem pieces_eq_iff :
    pieces separator text = parts ↔
      parts ≠ [] ∧ (∀ piece ∈ parts, separator ∉ piece) ∧
        text = [separator].intercalate parts := by
  constructor
  · rintro rfl
    refine ⟨?_, fun piece => not_mem_of_mem_pieces, ?_⟩
    · rw [pieces_eq_splitOn]
      exact List.splitOn_ne_nil _ _
    · rw [pieces_eq_splitOn, List.intercalate_splitOn]
  · rintro ⟨nonempty, clean, rfl⟩
    rw [pieces_eq_splitOn, List.splitOn_intercalate separator clean nonempty]

end Pieces

/-! ## Numerals -/

/-- A text is a numeral of a number: decimal digits that write it, one at least, and before them at
most one `+`. -/
def Numeral (text : List Char) (number : Nat) : Prop :=
  ∃ digits : List Char, digits ≠ [] ∧ (∀ c ∈ digits, c.isDigit = true) ∧
    (text = digits ∨ text = '+' :: digits) ∧ Nat.ofDigitChars 10 digits 0 = number

/-- A text has no `+` and no leading `0`, unless it is the one digit zero. -/
def Plain (text : List Char) : Prop :=
  '+' ∉ text ∧ ∀ rest, text = '0' :: rest → rest = []

variable {text digits : List Char} {limit number other value : Nat} {c : Char}

/-- Digits are those of the decimal system: `c.isDigit`. -/
theorem decimalDigit?_eq (c : Char) :
    decimalDigit? c = if c.isDigit then some (c.toNat - '0'.toNat) else none := by
  have same : (decide ('0' ≤ c) && decide (c ≤ '9')) = c.isDigit := rfl
  rw [decimalDigit?, same]

/-- Digits after a number already read continue it. -/
theorem digitsValue?_eq_some_iff :
    digitsValue? value text = some number ↔
      (∀ c ∈ text, c.isDigit = true) ∧ Nat.ofDigitChars 10 text value = number := by
  induction text generalizing value with
  | nil => simp [digitsValue?]
  | cons c text ih =>
      rw [digitsValue?, decimalDigit?_eq, Nat.ofDigitChars_cons, List.forall_mem_cons]
      by_cases digit : c.isDigit
      · rw [if_pos digit, Option.bind_some, ih, Nat.mul_comm value]
        simp only [digit, true_and]
      · rw [if_neg digit]
        simp [digit]

/-- What is no digit is not among digits: `c ∉ digits`. -/
theorem not_mem_digits (each : ∀ c ∈ digits, c.isDigit = true) (noDigit : c.isDigit = false) :
    c ∉ digits := by
  intro member
  rw [each c member] at noDigit
  cases noDigit

/-- A plus sign is no digit: `'+' ∉ digits`. -/
theorem plus_not_mem (each : ∀ c ∈ digits, c.isDigit = true) : '+' ∉ digits :=
  not_mem_digits each (by decide)

/-- Digits are read if there are any. -/
theorem unsignedDigits?_eq_some_iff :
    unsignedDigits? text = some number ↔
      text ≠ [] ∧ (∀ c ∈ text, c.isDigit = true) ∧ Nat.ofDigitChars 10 text 0 = number := by
  cases text with
  | nil => simp [unsignedDigits?]
  | cons c text => simp [unsignedDigits?, digitsValue?_eq_some_iff]

/-- **A number is read from its numerals**, if `number < limit`, and from no other text. -/
theorem parseBelow?_eq_some_iff :
    parseBelow? limit text = some number ↔ Numeral text number ∧ number < limit := by
  unfold parseBelow?
  rw [Option.filter_eq_some_iff, decide_eq_true_iff, unsignedDigits?_eq_some_iff]
  refine and_congr_left fun _ => ?_
  split
  · -- A numeral that starts with a plus sign has its digits after it.
    constructor
    · rintro ⟨nonempty, each, written⟩
      exact ⟨_, nonempty, each, .inr rfl, written⟩
    · rintro ⟨digits, nonempty, each, rfl | same, written⟩
      · exact absurd List.mem_cons_self (plus_not_mem each)
      · rw [(List.cons.inj same).2]
        exact ⟨nonempty, each, written⟩
  · rename_i unsigned
    constructor
    · rintro ⟨nonempty, each, written⟩
      exact ⟨_, nonempty, each, .inl rfl, written⟩
    · rintro ⟨digits, nonempty, each, rfl | signed, written⟩
      · exact ⟨nonempty, each, written⟩
      · exact absurd signed (unsigned digits)

/-- Nothing is read from a text that is no numeral of a number below the limit. -/
theorem parseBelow?_eq_none_iff :
    parseBelow? limit text = none ↔ ¬∃ number < limit, Numeral text number := by
  rw [Option.eq_none_iff_forall_ne_some, not_exists]
  refine forall_congr' fun number => ?_
  rw [ne_eq, parseBelow?_eq_some_iff, and_comm]

/-- A numeral writes one number. -/
theorem Numeral.unique (first : Numeral text number) (second : Numeral text other) :
    number = other := by
  have read : parseBelow? (number + other + 1) text = some number :=
    parseBelow?_eq_some_iff.2 ⟨first, by omega⟩
  rw [parseBelow?_eq_some_iff.2 ⟨second, by omega⟩] at read
  exact (Option.some.inj read).symm

/-- Digits and plus signs are all that a numeral has. -/
theorem Numeral.not_mem (numeral : Numeral text number) (noDigit : c.isDigit = false)
    (noSign : c ≠ '+') : c ∉ text := by
  obtain ⟨digits, -, each, rfl | rfl, -⟩ := numeral
  · exact not_mem_digits each noDigit
  · rw [List.mem_cons, not_or]
    exact ⟨noSign, not_mem_digits each noDigit⟩

/-! ## The numeral that is printed -/

/-- A number is printed as a numeral of it: `Nat.toDigits 10 number`. -/
theorem numeral_toDigits (number : Nat) : Numeral (Nat.toDigits 10 number) number :=
  ⟨_, Nat.toDigits_ne_nil, fun _ => Nat.isDigit_of_mem_toDigits (by decide) (by decide), .inl rfl,
    Nat.ofDigitChars_ten_toDigits⟩

/-- A digit is printed as itself. -/
theorem toDigits_digit (digit : c.isDigit = true) :
    c.toNat - '0'.toNat < 10 ∧ Nat.toDigits 10 (c.toNat - '0'.toNat) = [c] := by
  have range : 48 ≤ c.toNat ∧ c.toNat ≤ 57 := Char.isDigit_iff_toNat.1 digit
  have small : c.toNat - 48 < 10 := by omega
  refine ⟨small, ?_⟩
  have back : (c.toNat - 48).digitChar.toNat = c.toNat := by
    rw [Nat.toNat_digitChar_of_lt_ten small]
    omega
  exact (Nat.toDigits_of_lt_base small).trans (congrArg (fun c => [c]) (Char.toNat_inj.1 back))

/-- Digits after a number that is not zero are printed after it: `Nat.toDigits 10 value ++
digits`. -/
theorem toDigits_ofDigitChars (positive : 0 < value) (each : ∀ c ∈ digits, c.isDigit = true) :
    Nat.toDigits 10 (Nat.ofDigitChars 10 digits value) = Nat.toDigits 10 value ++ digits := by
  induction digits generalizing value with
  | nil => rw [Nat.ofDigitChars_nil, List.append_nil]
  | cons c digits ih =>
      obtain ⟨digit, each⟩ := List.forall_mem_cons.1 each
      obtain ⟨small, printed⟩ := toDigits_digit digit
      rw [Nat.ofDigitChars_cons, ih (by omega) each,
        ← Nat.toDigits_append_toDigits (by decide) positive small, printed, List.append_assoc]
      rfl

/-- A number that is not zero is not printed with a leading `'0'`. -/
theorem head?_toDigits_ne (positive : 0 < number) :
    (Nat.toDigits 10 number).head? ≠ some '0' := by
  induction number using Nat.strongRecOn with
  | ind number ih =>
      rw [Nat.toDigits_eq_if (by decide)]
      split
      · intro zero
        have : number = 0 := by simpa using zero
        omega
      · have start := ih (number / 10) (by omega) (by omega)
        cases printed : Nat.toDigits 10 (number / 10) with
        | nil => exact absurd printed Nat.toDigits_ne_nil
        | cons c rest =>
            rw [printed] at start
            exact start

/-- **Of the numerals of a number, the plain one is printed**: it is `Nat.toDigits 10 number`. -/
theorem Numeral.eq_toDigits_iff (numeral : Numeral text number) :
    text = Nat.toDigits 10 number ↔ Plain text := by
  constructor
  · rintro rfl
    refine ⟨plus_not_mem fun _ => Nat.isDigit_of_mem_toDigits (by decide) (by decide),
      fun rest printed => ?_⟩
    rcases Nat.eq_zero_or_pos number with rfl | positive
    · exact (List.cons.inj printed).2.symm
    · have start := head?_toDigits_ne positive
      rw [printed] at start
      exact absurd rfl start
  · rintro ⟨unsigned, unpadded⟩
    obtain ⟨digits, nonempty, each, rfl | rfl, rfl⟩ := numeral
    · obtain ⟨c, digits, rfl⟩ := List.exists_cons_of_ne_nil nonempty
      obtain ⟨digit, each⟩ := List.forall_mem_cons.1 each
      by_cases zero : c = '0'
      · rw [zero] at unpadded ⊢
        rw [unpadded digits rfl]
        rfl
      · -- The first digit is a number that the others continue.
        obtain ⟨small, printed⟩ := toDigits_digit digit
        have positive : 0 < c.toNat - '0'.toNat := by
          have range := (Char.isDigit_iff_toNat.1 digit).1
          have : c.toNat ≠ '0'.toNat := mt Char.toNat_inj.1 zero
          omega
        rw [Nat.ofDigitChars_cons, Nat.mul_zero, Nat.zero_add,
          toDigits_ofDigitChars positive each, printed]
        rfl
    · exact absurd List.mem_cons_self unsigned

/-! ## Hexadecimal digits -/

/-- The digits of a number below `65536`, of which `hexWord number` has four. -/
theorem toList_hexWord (small : number < 65536) :
    (hexWord number).toList = [Nat.digitChar (number / 4096), Nat.digitChar (number / 256 % 16),
      Nat.digitChar (number / 16 % 16), Nat.digitChar (number % 16)] := by
  have last {number : Nat} (few : number < 16) : Nat.toDigits 16 number = [Nat.digitChar number] :=
    Nat.toDigits_of_lt_base few
  have more {number : Nat} (many : 16 ≤ number) : Nat.toDigits 16 number =
      Nat.toDigits 16 (number / 16) ++ [Nat.digitChar (number % 16)] := by
    rw [Nat.toDigits_eq_if (by decide), if_neg (by omega)]
  have zero : Nat.digitChar 0 = '0' := rfl
  rw [hexWord, String.toList_ofList]
  -- The digits that are there, by how many they are; zeros stand for the others.
  by_cases one : number < 16
  · rw [last one, show number / 4096 = 0 by omega, show number / 256 % 16 = 0 by omega,
      show number / 16 % 16 = 0 by omega, show number % 16 = number by omega, zero]
    rfl
  by_cases two : number < 256
  · rw [more (by omega), last (by omega), show number / 4096 = 0 by omega,
      show number / 256 % 16 = 0 by omega, show number / 16 % 16 = number / 16 by omega, zero]
    rfl
  by_cases three : number < 4096
  · rw [more (by omega), more (by omega), last (by omega), Nat.div_div_eq_div_mul,
      show number / 4096 = 0 by omega, show number / 256 % 16 = number / 256 by omega, zero]
    rfl
  · rw [more (by omega), more (by omega), more (by omega), last (by omega),
      show number / 16 / 16 / 16 = number / 4096 by omega,
      show number / 16 / 16 = number / 256 by omega]
    rfl

end PeerWire.Text
