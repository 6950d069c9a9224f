import PeerWire.Proofs.Characters
import PeerWire.Text.Blank
import PeerWire.Text.Hex

/-! # Hexadecimal spellings

A spelling of some bytes has two digits for each of them, in either case, and blanks anywhere
(`Hex.Spelling`). Reading works on the bytes of a text and not on its characters, and gets the same
from them, as the bytes of a character that is no digit are no digits either
(`Hex.map_digitValue?_encodeAll_iff`). So what is read is what is spelled
(`Hex.decode_withoutBlanks_eq_ok_iff`), and the texts that spell something are the even numbers of
digits (`Hex.exists_spelling_iff`). -/

namespace PeerWire

namespace Hex

variable {text : String} {chars : List Char} {c : Char} {bytes : Bytes} {value : UInt8}

/-- A text without its blanks and in lower case is the digit pairs of some bytes. -/
def Spelling (bytes : Bytes) (text : String) : Prop :=
  (Text.withoutBlanks text).toList.map Char.toLower = (encode bytes).toList

/-- The digits of either case: `0` to `9`, `a` to `f` and `A` to `F`. -/
def IsDigit (c : Char) : Prop := c ∈ "0123456789abcdefABCDEF".toList

/-- A text is an even number of digits, not counting blanks. -/
def IsPaired (text : String) : Prop :=
  (∀ c ∈ (Text.withoutBlanks text).toList, IsDigit c) ∧
    2 ∣ (Text.withoutBlanks text).toList.length

instance (bytes : Bytes) (text : String) : Decidable (Spelling bytes text) :=
  inferInstanceAs (Decidable (_ = _))

/-! ## The values of digits -/

/-- The values of the digits of some bytes: `byte / 16` and `byte % 16` for each. -/
def halves (bytes : Bytes) : Bytes := bytes.flatMap fun byte => [byte / 16, byte % 16]

/-- The first byte comes before the others. -/
theorem halves_cons (byte : UInt8) (bytes : Bytes) :
    halves (byte :: bytes) = byte / 16 :: byte % 16 :: halves bytes := rfl

/-- The digit pairs of some bytes are the digits of these values: `(halves bytes).map digit`. -/
theorem toList_encode (bytes : Bytes) : (encode bytes).toList = (halves bytes).map digit := by
  rw [encode, String.toList_ofList, halves, List.map_flatMap]
  rfl

/-- The halves of a byte are below sixteen, and it can be put together from them: `byte / 16 * 16 +
byte % 16 = byte`. -/
theorem halves_of_byte (byte : UInt8) :
    byte / 16 < 16 ∧ byte % 16 < 16 ∧ byte / 16 * 16 + byte % 16 = byte := by
  have range := byte.toNat_lt
  simp only [UInt8.lt_iff_toNat_lt, ← UInt8.toNat_inj, UInt8.toNat_add, UInt8.toNat_mul,
    UInt8.toNat_div, UInt8.toNat_mod, UInt8.toNat_ofNat, Nat.reducePow, Nat.reduceMod] at range ⊢
  omega

/-- The halves of a byte that was put together as `high * 16 + low`. -/
theorem halves_of_lt {high low : UInt8} (first : high < 16) (second : low < 16) :
    (high * 16 + low) / 16 = high ∧ (high * 16 + low) % 16 = low := by
  simp only [UInt8.lt_iff_toNat_lt, ← UInt8.toNat_inj, UInt8.toNat_add, UInt8.toNat_mul,
    UInt8.toNat_div, UInt8.toNat_mod, UInt8.toNat_ofNat, Nat.reducePow, Nat.reduceMod]
    at first second ⊢
  omega

/-- They are values below sixteen. -/
theorem lt_of_mem_halves (member : value ∈ halves bytes) : value < 16 := by
  obtain ⟨byte, -, half⟩ := List.mem_flatMap.1 member
  obtain ⟨high, low, -⟩ := halves_of_byte byte
  simp only [List.mem_cons, List.not_mem_nil, or_false] at half
  rcases half with rfl | rfl
  · exact high
  · exact low

/-- An even number of values below sixteen are the `halves` of some bytes. -/
theorem exists_eq_halves :
    ∀ {values : Bytes}, (∀ value ∈ values, value < 16) → 2 ∣ values.length →
      ∃ bytes, values = halves bytes
  | [], _, _ => ⟨[], rfl⟩
  | [_], _, even => absurd even (show ¬2 ∣ 1 by decide)
  | high :: low :: values, small, even => by
      obtain ⟨first, others⟩ := List.forall_mem_cons.1 small
      obtain ⟨second, later⟩ := List.forall_mem_cons.1 others
      rw [List.length_cons, List.length_cons] at even
      obtain ⟨bytes, rfl⟩ := exists_eq_halves later (by omega)
      obtain ⟨above, below⟩ := halves_of_lt first second
      refine ⟨(high * 16 + low) :: bytes, ?_⟩
      rw [halves_cons, above, below]

/-- There are two halves for each byte: `2 * bytes.length`. -/
theorem length_halves (bytes : Bytes) : (halves bytes).length = 2 * bytes.length := by
  induction bytes with
  | nil => rfl
  | cons byte bytes ih =>
      rw [halves_cons, List.length_cons, List.length_cons, ih, List.length_cons]
      omega

/-! ## Digits and their bytes -/

/-- A byte is a digit of a value if it is one of its two forms. -/
theorem digitValue?_ofNat_iff : ∀ number < 128, ∀ half < 16,
    digitValue? (UInt8.ofNat number) = some (UInt8.ofNat half) ↔
      (Char.ofNat number).toLower = digit (UInt8.ofNat half) := by
  decide +kernel

/-- Bytes that are no characters of their own, from `0x80` on, are no digits. -/
theorem digitValue?_of_le {byte : UInt8} (large : 0x80 ≤ byte.toNat) : digitValue? byte = none :=
  forall_octet (P := fun byte => 0x80 ≤ byte.toNat → digitValue? byte = none) (by decide +kernel)
    byte large

/-- A form of a digit is one of the characters of seven bits. -/
theorem lt_of_toLower_eq_digit (small : value < 16) (form : c.toLower = digit value) :
    c.toNat < 0x80 := by
  have digits : ∀ half < 16, (digit (UInt8.ofNat half)).toNat < 0x80 := by decide
  have range : (digit value).toNat < 0x80 := by
    simpa using digits value.toNat (UInt8.lt_iff_toNat_lt.1 small)
  by_contra large
  have same : c.toLower = c := dif_neg fun upper => large (Nat.lt_of_le_of_lt upper.2 (by decide))
  rw [same] at form
  exact large (form ▸ range)

/-- A character of seven bits is read as the digit of which it is a form: `c.toLower = digit
value`. -/
theorem digitValue?_char_iff (ascii : c.toNat < 0x80) (small : value < 16) :
    digitValue? (UInt8.ofNat c.toNat) = some value ↔ c.toLower = digit value := by
  simpa using digitValue?_ofNat_iff c.toNat ascii value.toNat (UInt8.lt_iff_toNat_lt.1 small)

/-- The digits are the forms of the digits of values below sixteen. -/
theorem isDigit_iff : IsDigit c ↔ ∃ value < 16, c.toLower = digit value := by
  constructor
  · intro member
    have each : "0123456789abcdefABCDEF".toList.all (fun c =>
        (List.range 16).any fun half => c.toLower == digit (UInt8.ofNat half)) = true := by decide
    obtain ⟨half, among, form⟩ := List.any_eq_true.1 (List.all_eq_true.1 each c member)
    have small : half < 16 := List.mem_range.1 among
    refine ⟨UInt8.ofNat half, ?_, eq_of_beq form⟩
    rw [UInt8.lt_iff_toNat_lt, UInt8.toNat_ofNat_of_lt' (Nat.lt_trans small (by decide))]
    exact small
  · rintro ⟨value, small, form⟩
    have each : ∀ number < 128, ∀ half < 16,
        (Char.ofNat number).toLower = digit (UInt8.ofNat half) →
          Char.ofNat number ∈ "0123456789abcdefABCDEF".toList := by decide +kernel
    have found := each c.toNat (lt_of_toLower_eq_digit small form) value.toNat
      (UInt8.lt_iff_toNat_lt.1 small)
    rw [Char.ofNat_toNat, UInt8.ofNat_toNat] at found
    exact found form

/-- **The bytes of a text are read as digits of some `values` exactly if its characters are**: a
byte of a character that is none is none. -/
theorem map_digitValue?_encodeAll_iff {values : Bytes} (small : ∀ value ∈ values, value < 16) :
    (Utf8.encodeAll chars).map digitValue? = values.map some ↔
      chars.map Char.toLower = values.map digit := by
  induction chars generalizing values with
  | nil =>
      cases values with
      | nil => exact ⟨fun _ => rfl, fun _ => rfl⟩
      | cons value values => exact ⟨nofun, nofun⟩
  | cons c chars ih =>
      rw [Utf8.encodeAll_cons, List.map_append, List.map_cons]
      have form := Utf8.form_encodeChar c
      cases values with
      | nil =>
          obtain ⟨first, tail, bytes, -⟩ := form.parts
          rw [bytes]
          exact ⟨nofun, nofun⟩
      | cons value values =>
          obtain ⟨first, later⟩ := List.forall_mem_cons.1 small
          rw [List.map_cons, List.map_cons, List.cons.injEq, ← ih later]
          by_cases ascii : c.toNat < 0x80
          · rw [form.eq_singleton ascii, List.map_singleton, List.singleton_append,
              List.cons.injEq, digitValue?_char_iff ascii first]
          · -- Neither the first byte of any other character is a digit, nor is the character.
            obtain ⟨lead, tail, bytes, -⟩ := form.parts
            have wide : 0x80 ≤ lead.toNat :=
              form.le_of_mem (Nat.le_of_not_lt ascii) (bytes ▸ List.mem_cons_self)
            rw [bytes, List.map_cons, List.cons_append, List.cons.injEq, digitValue?_of_le wide]
            constructor
            · rintro ⟨none, -⟩
              cases none
            · rintro ⟨lower, -⟩
              exact absurd (lt_of_toLower_eq_digit first lower) ascii

/-! ## Reading pairs -/

/-- The value of a digit is below sixteen. -/
theorem lt_of_digitValue? {byte : UInt8} (read : digitValue? byte = some value) : value < 16 :=
  forall_octet (P := fun byte => ∀ value ∈ digitValue? byte, value < 16) (by decide +kernel)
    byte value read

/-- Pairs of bytes are read as the bytes of which they are the digits, `done.reverse ++ bytes`. -/
theorem decodePairs_eq_ok_iff {position : Nat} {done pairs result : Bytes}
    (even : 2 ∣ pairs.length) :
    decodePairs position done pairs = .ok result ↔
      ∃ bytes, result = done.reverse ++ bytes ∧
        pairs.map digitValue? = (halves bytes).map some := by
  fun_induction decodePairs position done pairs with
  | case1 position done high low rest h l readLow readHigh ih =>
      rw [List.length_cons, List.length_cons] at even
      obtain ⟨above, below⟩ :=
        halves_of_lt (lt_of_digitValue? readHigh) (lt_of_digitValue? readLow)
      rw [ih (by omega)]
      constructor
      · rintro ⟨bytes, rfl, same⟩
        refine ⟨(h * 16 + l) :: bytes, ?_, ?_⟩
        · rw [List.reverse_cons, List.append_assoc]
          rfl
        · rw [halves_cons, above, below, List.map_cons, List.map_cons, List.map_cons,
            List.map_cons, readHigh, readLow, same]
      · rintro ⟨bytes, rfl, same⟩
        cases bytes with
        | nil => cases same
        | cons byte bytes =>
            rw [halves_cons, List.map_cons, List.map_cons, List.map_cons, List.map_cons,
              readHigh, readLow] at same
            obtain ⟨first, second, later⟩ : h = byte / 16 ∧ l = byte % 16 ∧ _ := by
              simpa using same
            obtain ⟨-, -, whole⟩ := halves_of_byte byte
            refine ⟨bytes, ?_, later⟩
            rw [first, second, whole, List.reverse_cons, List.append_assoc]
            rfl
  | case2 position done high low rest bad =>
      refine ⟨nofun, fun ⟨bytes, _, same⟩ => ?_⟩
      cases bytes with
      | nil => cases same
      | cons byte bytes => simp [halves_cons, bad] at same
  | case3 position done high low rest h bad readHigh =>
      refine ⟨nofun, fun ⟨bytes, _, same⟩ => ?_⟩
      cases bytes with
      | nil => cases same
      | cons byte bytes => simp [halves_cons, bad] at same
  | case4 pairs position done short =>
      cases pairs with
      | nil =>
          constructor
          · rintro ⟨⟩
            exact ⟨[], (List.append_nil _).symm, rfl⟩
          · rintro ⟨_ | ⟨byte, bytes⟩, rfl, same⟩
            · rw [List.append_nil]
            · cases same
      | cons high rest =>
          cases rest with
          | nil => exact absurd even (show ¬2 ∣ 1 by decide)
          | cons low rest => exact (short high low rest rfl).elim

/-- **A text is read as the bytes whose digit pairs it is**, `encode bytes`, in either case. -/
theorem decode_eq_ok_iff :
    decode text = .ok bytes ↔ text.toList.map Char.toLower = (encode bytes).toList := by
  have characters : (Utf8.encodeAll text.toList).map digitValue? = (halves bytes).map some ↔
      text.toList.map Char.toLower = (halves bytes).map digit :=
    map_digitValue?_encodeAll_iff fun value member => lt_of_mem_halves member
  rw [decode, Utf8.toList_toUTF8, toList_encode, ← characters]
  by_cases odd : (Utf8.encodeAll text.toList).length % 2 = 1
  · rw [if_pos odd]
    refine ⟨nofun, fun same => ?_⟩
    have count := congrArg List.length same
    rw [List.length_map, List.length_map, length_halves] at count
    omega
  · rw [if_neg odd, decodePairs_eq_ok_iff (by omega)]
    simp

/-- What is read of a text without its blanks is what it spells: `Spelling bytes text`. -/
theorem decode_withoutBlanks_eq_ok_iff :
    decode (Text.withoutBlanks text) = .ok bytes ↔ Spelling bytes text := decode_eq_ok_iff

/-- Digits are the forms of the digits of some values. -/
theorem forall_isDigit_iff : (∀ c ∈ chars, IsDigit c) ↔
    ∃ values : Bytes, (∀ value ∈ values, value < 16) ∧
      chars.map Char.toLower = values.map digit := by
  induction chars with
  | nil => simp
  | cons c chars ih =>
      rw [List.forall_mem_cons, ih, isDigit_iff]
      constructor
      · rintro ⟨⟨value, small, form⟩, values, later, forms⟩
        exact ⟨value :: values, List.forall_mem_cons.2 ⟨small, later⟩, by
          rw [List.map_cons, List.map_cons, form, forms]⟩
      · rintro ⟨_ | ⟨value, values⟩, small, forms⟩
        · cases forms
        · obtain ⟨first, later⟩ := List.forall_mem_cons.1 small
          obtain ⟨form, forms⟩ := List.cons.inj forms
          exact ⟨⟨value, first, form⟩, values, later, forms⟩

/-- **The texts that spell some bytes are the even numbers of digits**: those that are
`IsPaired`. -/
theorem exists_spelling_iff : (∃ bytes, Spelling bytes text) ↔ IsPaired text := by
  rw [IsPaired, forall_isDigit_iff]
  constructor
  · rintro ⟨bytes, spelled⟩
    rw [Spelling, toList_encode] at spelled
    have count := congrArg List.length spelled
    rw [List.length_map, List.length_map, length_halves] at count
    exact ⟨⟨halves bytes, fun _ member => lt_of_mem_halves member, spelled⟩, ⟨_, count⟩⟩
  · rintro ⟨⟨values, small, forms⟩, even⟩
    have count := congrArg List.length forms
    rw [List.length_map, List.length_map] at count
    obtain ⟨bytes, rfl⟩ := exists_eq_halves small (count ▸ even)
    exact ⟨bytes, by rw [Spelling, toList_encode, forms]⟩

/-- Either case will do, and blanks within a pair. -/
example : Spelling [0x00, 0x9f, 0xAB] " 00 9\tFa b" := by decide

end Hex

end PeerWire
