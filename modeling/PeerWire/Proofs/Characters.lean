import Mathlib.Data.List.DropRight
import PeerWire.Proofs.CompressedStreams
import PeerWire.Proofs.OctetBits
import PeerWire.Text.Utf8

/-! # Characters as bytes

A character is written as one to four bytes, of which exactly the first is no continuation
(`Utf8.Form`). So the places in a text where a character starts can be told from the bytes
(`Utf8.isBoundary_encodeAll_iff`), and reading with repair gives back what was written, without any
replacement (`Utf8.decodeLossy_encodeAll`). A zero byte is the character of that number and part of
no other, so that zeros are trimmed off the bytes where these characters are dropped from the text
(`Utf8.trimZeros_encodeAll`). -/

namespace PeerWire

namespace Utf8

variable {c : Char} {chars front : List Char} {bytes rest : Bytes} {low high byte : UInt8}
  {number value count place : Nat}

/-! ## The bytes of a character -/

/-- A further byte of a character, with the lowest six bits of a number: `number % 64 + 128`. -/
def tailByte (number : Nat) : UInt8 := UInt8.ofNat (number % 64 + 128)

/-- A further byte says how much it adds. -/
theorem toNat_tailByte (number : Nat) : (tailByte number).toNat = number % 64 + 128 :=
  UInt8.toNat_ofNat_of_lt' (Nat.lt_of_lt_of_le
    (Nat.add_lt_add_right (Nat.mod_lt number (by decide)) 128) (by decide))

/-- The bytes of a character, by how many there are. -/
inductive Form (c : Char) : Bytes → Prop where
  /-- Seven bits in one byte. -/
  | one (small : c.toNat < 0x80) : Form c [UInt8.ofNat c.toNat]
  /-- Eleven bits in two bytes. -/
  | two (large : 0x80 ≤ c.toNat) (small : c.toNat < 0x800) :
      Form c [UInt8.ofNat (0xC0 + c.toNat / 64), tailByte c.toNat]
  /-- Sixteen bits in three bytes. -/
  | three (large : 0x800 ≤ c.toNat) (small : c.toNat < 0x10000) :
      Form c [UInt8.ofNat (0xE0 + c.toNat / 4096), tailByte (c.toNat / 64), tailByte c.toNat]
  /-- All others in four bytes. -/
  | four (large : 0x10000 ≤ c.toNat) :
      Form c [UInt8.ofNat (0xF0 + c.toNat / 262144), tailByte (c.toNat / 4096),
        tailByte (c.toNat / 64), tailByte c.toNat]

/-- A character is no surrogate, and there are no characters past the last one: it is below
`0x110000`. -/
theorem toNat_valid (c : Char) :
    c.toNat < 0xD800 ∨ 0xDFFF < c.toNat ∧ c.toNat < 0x110000 := c.valid

/-- **A character is written in one of these forms**, by `String.utf8EncodeChar c`. -/
theorem form_encodeChar (c : Char) : Form c (String.utf8EncodeChar c) := by
  have valid := toNat_valid c
  show Form c (if c.toNat ≤ 0x7F then _ else if c.toNat ≤ 0x7FF then _
    else if c.toNat ≤ 0xFFFF then _ else _)
  split
  · rename_i small
    exact .one (by omega)
  · rename_i large
    split
    · rename_i small
      have lead : c.toNat / 64 % 32 + 192 = 0xC0 + c.toNat / 64 := by omega
      rw [show c.val.toNat = c.toNat from rfl, lead]
      exact .two (by omega) (by omega)
    · rename_i large
      split
      · rename_i small
        have lead : c.toNat / 4096 % 16 + 224 = 0xE0 + c.toNat / 4096 := by omega
        rw [show c.val.toNat = c.toNat from rfl, lead]
        exact .three (by omega) (by omega)
      · rename_i large
        have lead : c.toNat / 262144 % 8 + 240 = 0xF0 + c.toNat / 262144 := by omega
        rw [show c.val.toNat = c.toNat from rfl, lead]
        exact .four (by omega)

/-- That takes at least one byte. -/
theorem length_encodeChar_pos (c : Char) : 0 < (String.utf8EncodeChar c).length := by
  rw [String.length_utf8EncodeChar]
  exact c.utf8Size_pos

/-- The continuations are the bytes whose highest two bits are one and zero: `byte.toNat / 64 =
2`. -/
theorem isContinuation_eq (byte : UInt8) : isContinuation byte = decide (byte.toNat / 64 = 2) :=
  forall_octet (P := fun byte => isContinuation byte = decide (byte.toNat / 64 = 2))
    (by decide +kernel) byte

/-- Further bytes are continuations. -/
theorem isContinuation_tailByte (number : Nat) : isContinuation (tailByte number) = true := by
  rw [isContinuation_eq, toNat_tailByte]
  exact decide_eq_true (by omega)

/-- The first byte of a character is no continuation, and the others are. -/
theorem Form.parts (form : Form c bytes) :
    ∃ first tail, bytes = first :: tail ∧ isContinuation first = false ∧ tail.length ≤ 3 ∧
      ∀ byte ∈ tail, isContinuation byte = true := by
  have valid := toNat_valid c
  have leads {first : Nat} (small : first < 256) (other : first / 64 ≠ 2) :
      isContinuation (UInt8.ofNat first) = false := by
    rw [isContinuation_eq, UInt8.toNat_ofNat_of_lt' small]
    exact decide_eq_false other
  cases form with
  | one small => exact ⟨_, _, rfl, leads (by omega) (by omega), by simp, by simp⟩
  | two large small =>
      exact ⟨_, _, rfl, leads (by omega) (by omega), by simp, by simp [isContinuation_tailByte]⟩
  | three large small =>
      exact ⟨_, _, rfl, leads (by omega) (by omega), by simp, by simp [isContinuation_tailByte]⟩
  | four large =>
      exact ⟨_, _, rfl, leads (by omega) (by omega), by simp, by simp [isContinuation_tailByte]⟩

/-- A character of seven bits is its byte: `UInt8.ofNat c.toNat`. -/
theorem Form.eq_singleton (form : Form c bytes) (small : c.toNat < 0x80) :
    bytes = [UInt8.ofNat c.toNat] := by
  cases form with
  | one => rfl
  | two large | three large | four large => omega

/-- The bytes of any other character have their highest bit: `0x80 ≤ byte.toNat`. -/
theorem Form.le_of_mem (form : Form c bytes) (large : 0x80 ≤ c.toNat) (member : byte ∈ bytes) :
    0x80 ≤ byte.toNat := by
  have valid := toNat_valid c
  have lead {first : Nat} (least : 0x80 ≤ first) (most : first < 256) :
      0x80 ≤ (UInt8.ofNat first).toNat := by rwa [UInt8.toNat_ofNat_of_lt' most]
  have tail (number : Nat) : 0x80 ≤ (tailByte number).toNat := by
    rw [toNat_tailByte]
    exact Nat.le_add_left 0x80 _
  cases form with
  | one small => omega
  | two | three | four =>
      rcases List.mem_cons.1 member with rfl | further
      · exact lead (by omega) (by omega)
      · simp only [List.mem_cons, List.not_mem_nil, or_false] at further
        rcases further with rfl | rfl | rfl <;> exact tail _

/-- Only the first character of all, `'\x00'`, has a zero byte. -/
theorem Form.eq_of_zero_mem (form : Form c bytes) (zero : (0 : UInt8) ∈ bytes) : c = '\x00' := by
  by_cases small : c.toNat < 0x80
  · rw [form.eq_singleton small, List.mem_singleton] at zero
    have none := congrArg UInt8.toNat zero
    rw [UInt8.toNat_ofNat_of_lt' (Nat.lt_trans small (by decide))] at none
    exact Char.toNat_inj.1 none.symm
  · exact absurd (form.le_of_mem (Nat.le_of_not_lt small) zero) (by decide)

/-! ## Reading a character -/

/-- A further byte in its range is taken, and adds its bits: `value * 64 + number % 64`. -/
theorem continueChar_tailByte (least : low.toNat ≤ number % 64 + 128)
    (most : number % 64 + 128 ≤ high.toNat) :
    continueChar value (count + 1) low high (tailByte number :: rest) =
      continueChar (value * 64 + number % 64) count 0x80 0xBF rest := by
  have bits : (number % 64 + 128) % 64 = number % 64 := by omega
  rw [← toNat_tailByte, ← UInt8.le_iff_toNat_le] at least most
  rw [continueChar, if_pos (by simp [least, most]), toNat_tailByte, bits]

/-- The range of a further byte leaves out some of them only behind the first byte. -/
theorem continueChar_tailByte_inner :
    continueChar value (count + 1) 0x80 0xBF (tailByte number :: rest) =
      continueChar (value * 64 + number % 64) count 0x80 0xBF rest :=
  continueChar_tailByte (Nat.le_add_left 128 _)
    (Nat.add_le_add_right (Nat.le_of_lt_succ (Nat.mod_lt number (by decide))) 128)

/-- The first of two bytes, `0xC0 + bits`. -/
theorem sequenceAfter?_two : ∀ bits < 32, 2 ≤ bits →
    sequenceAfter? (UInt8.ofNat (0xC0 + bits)) = some (1, 0x80, 0xBF) := by
  decide

/-- The first of three bytes, `0xE0 + bits`: overlong forms and surrogates are left out. -/
theorem sequenceAfter?_three : ∀ bits < 16,
    sequenceAfter? (UInt8.ofNat (0xE0 + bits)) =
      some (2, if bits = 0 then 0xA0 else 0x80, if bits = 13 then 0x9F else 0xBF) := by
  decide

/-- The first of four bytes, `0xF0 + bits`: overlong forms and numbers past the last character are
left out. -/
theorem sequenceAfter?_four : ∀ bits < 5,
    sequenceAfter? (UInt8.ofNat (0xF0 + bits)) =
      some (3, if bits = 0 then 0x90 else 0x80, if bits = 4 then 0x8F else 0xBF) := by
  decide

/-- **A character is read back** from its bytes, and what follows, `rest`, is left. -/
theorem Form.nextChar (form : Form c bytes) (rest : Bytes) :
    ∃ first tail, bytes = first :: tail ∧ nextChar first (tail ++ rest) = (some c, rest) := by
  have valid := toNat_valid c
  have lead {first : Nat} (small : first < 256) : (UInt8.ofNat first).toNat = first :=
    UInt8.toNat_ofNat_of_lt' small
  have whole {number : Nat} (same : number = c.toNat) :
      continueChar number 0 0x80 0xBF rest = (some c, rest) := by
    rw [continueChar, same, Char.ofNat_toNat]
  cases form with
  | one small =>
      refine ⟨_, _, rfl, ?_⟩
      have single : sequenceAfter? (UInt8.ofNat c.toNat) = some (0, 0x80, 0xBF) :=
        if_pos (UInt8.lt_iff_toNat_lt.2 (by rw [lead (by omega)]; exact small))
      rw [Utf8.nextChar, single]
      exact whole (lead (by omega))
  | two large small =>
      refine ⟨_, _, rfl, ?_⟩
      rw [Utf8.nextChar, sequenceAfter?_two _ (by omega) (by omega)]
      show continueChar _ 1 0x80 0xBF (tailByte c.toNat :: rest) = _
      rw [continueChar_tailByte_inner, leadBits, lead (by omega)]
      exact whole (by omega)
  | three large small =>
      -- What the range leaves out has fewer bits, or is a surrogate.
      have least : (if c.toNat / 4096 = 0 then 0xA0 else 0x80 : UInt8).toNat ≤
          c.toNat / 64 % 64 + 128 := by
        split
        · show 0xA0 ≤ _
          omega
        · exact Nat.le_add_left 0x80 _
      have most : c.toNat / 64 % 64 + 128 ≤
          (if c.toNat / 4096 = 13 then 0x9F else 0xBF : UInt8).toNat := by
        split
        · show _ ≤ 0x9F
          omega
        · show _ ≤ 0xBF
          omega
      refine ⟨_, _, rfl, ?_⟩
      rw [Utf8.nextChar, sequenceAfter?_three _ (by omega)]
      show continueChar _ 2 _ _ (tailByte (c.toNat / 64) :: tailByte c.toNat :: rest) = _
      rw [continueChar_tailByte least most, continueChar_tailByte_inner, leadBits, lead (by omega)]
      exact whole (by omega)
  | four large =>
      -- Here it has fewer bits, or is past the last character.
      have least : (if c.toNat / 262144 = 0 then 0x90 else 0x80 : UInt8).toNat ≤
          c.toNat / 4096 % 64 + 128 := by
        split
        · show 0x90 ≤ _
          omega
        · exact Nat.le_add_left 0x80 _
      have most : c.toNat / 4096 % 64 + 128 ≤
          (if c.toNat / 262144 = 4 then 0x8F else 0xBF : UInt8).toNat := by
        split
        · show _ ≤ 0x8F
          omega
        · show _ ≤ 0xBF
          omega
      have bits : leadBits (UInt8.ofNat (0xF0 + c.toNat / 262144)) 3 = c.toNat / 262144 := by
        show (UInt8.ofNat (0xF0 + c.toNat / 262144)).toNat % 8 = _
        rw [lead (by omega)]
        omega
      refine ⟨_, _, rfl, ?_⟩
      rw [Utf8.nextChar, sequenceAfter?_four _ (by omega)]
      show continueChar _ 3 _ _
        (tailByte (c.toNat / 4096) :: tailByte (c.toNat / 64) :: tailByte c.toNat :: rest) = _
      rw [continueChar_tailByte least most, continueChar_tailByte_inner,
        continueChar_tailByte_inner, bits]
      exact whole (by omega)

/-! ## The bytes of a text -/

/-- The bytes of some characters, one after the other. -/
def encodeAll (chars : List Char) : Bytes := chars.flatMap String.utf8EncodeChar

/-- The first of some characters comes before the others. -/
theorem encodeAll_cons (c : Char) (chars : List Char) :
    encodeAll (c :: chars) = String.utf8EncodeChar c ++ encodeAll chars := List.flatMap_cons

/-- The bytes of two parts, `front ++ back`, are one after the other. -/
theorem encodeAll_append (front back : List Char) :
    encodeAll (front ++ back) = encodeAll front ++ encodeAll back := List.flatMap_append

/-- The bytes of a text are those of its characters: `encodeAll text.toList`. -/
theorem toList_toUTF8 (text : String) : text.toUTF8.toList = encodeAll text.toList := by
  show text.toByteArray.toList = _
  conv_lhs => rw [← String.ofList_toList (s := text)]
  rw [String.toByteArray_ofList, Zlib.toList_eq_data_toList, List.utf8Encode,
    List.data_toByteArray]
  rfl

/-- They are as many as its size says: `text.utf8ByteSize`. -/
theorem length_encodeAll_toList (text : String) :
    (encodeAll text.toList).length = text.utf8ByteSize := by
  rw [← toList_toUTF8, Zlib.toList_eq_data_toList]
  rfl

/-- **What was written is read back**, behind what was read before: `done.reverse ++ chars`. -/
theorem decodeLossyList_encodeAll (done chars : List Char) :
    decodeLossyList done (encodeAll chars) = done.reverse ++ chars := by
  induction chars generalizing done with
  | nil =>
      rw [encodeAll, List.flatMap_nil, decodeLossyList, List.append_nil]
  | cons c chars ih =>
      obtain ⟨first, tail, bytes, read⟩ := (form_encodeChar c).nextChar (encodeAll chars)
      rw [encodeAll_cons, bytes, List.cons_append, decodeLossyList, read]
      show decodeLossyList (c :: done) (encodeAll chars) = _
      rw [ih, List.reverse_cons, List.append_assoc]
      rfl

/-- No character is replaced when what was written is read with repair: `decodeLossy (encodeAll
chars)` is the text of `chars`. -/
theorem decodeLossy_encodeAll (chars : List Char) :
    decodeLossy (encodeAll chars) = String.ofList chars := by
  rw [decodeLossy, decodeLossyList_encodeAll]
  rfl

/-- **Zeros are trimmed off the bytes of a text where null characters are dropped from its end**, by
`rdropWhile`. -/
theorem trimZeros_encodeAll (chars : List Char) :
    trimZeros (encodeAll chars) = encodeAll (chars.rdropWhile (· == '\x00')) := by
  induction chars using List.reverseRecOn with
  | nil => rfl
  | append_singleton chars c ih =>
      have last : encodeAll [c] = String.utf8EncodeChar c := List.flatMap_singleton _ c
      rw [encodeAll_append, last]
      by_cases null : c = '\x00'
      · subst null
        rw [List.rdropWhile_concat_pos _ _ _ rfl, ← ih]
        exact List.rdropWhile_concat_pos _ _ _ rfl
      · rw [List.rdropWhile_concat_neg _ _ _ (by simpa using null), encodeAll_append, last]
        apply trimZeros_eq_self
        rw [List.getLast?_append_of_ne_nil _ (String.utf8EncodeChar_ne_nil)]
        intro zero
        exact null ((form_encodeChar c).eq_of_zero_mem (List.mem_of_getLast? zero))

/-! ## Where characters start -/

/-- Whether a character starts at a `place` in some bytes, or they end there. -/
def isBoundary (bytes : Bytes) (place : Nat) : Bool :=
  place == 0 || match bytes[place]? with
    | some byte => !isContinuation byte
    | none => place == bytes.length

/-- The bytes of a text do not start with a continuation. -/
theorem isContinuation_of_head (starts : (encodeAll chars)[0]? = some byte) :
    isContinuation byte = false := by
  cases chars with
  | nil => cases starts
  | cons c chars =>
      obtain ⟨first, tail, bytes, lead, -, -⟩ := (form_encodeChar c).parts
      rw [encodeAll_cons, bytes] at starts
      cases starts
      exact lead

/-- The places behind a character are those of the text that follows it. -/
theorem isBoundary_append (c : Char) (chars : List Char) (place : Nat) :
    isBoundary (String.utf8EncodeChar c ++ encodeAll chars)
      ((String.utf8EncodeChar c).length + place) = isBoundary (encodeAll chars) place := by
  have positive : 0 < (String.utf8EncodeChar c).length := length_encodeChar_pos c
  have behind : (String.utf8EncodeChar c ++ encodeAll chars)[
      (String.utf8EncodeChar c).length + place]? = (encodeAll chars)[place]? := by
    rw [List.getElem?_append_right (Nat.le_add_right _ _), Nat.add_sub_cancel_left]
  rw [isBoundary, isBoundary, behind, List.length_append]
  cases found : (encodeAll chars)[place]? with
  | none =>
      have past := List.getElem?_eq_none_iff.1 found
      rw [Bool.eq_iff_iff]
      simp only [Bool.or_eq_true, beq_iff_eq]
      omega
  | some byte =>
      cases place with
      | zero => simp [isContinuation_of_head found]
      | succ place => simp

/-- **A character starts where the bytes of the characters before it end**, at `(encodeAll
front).length`, and nowhere else. -/
theorem isBoundary_encodeAll_iff :
    isBoundary (encodeAll chars) place = true ↔
      ∃ front, front <+: chars ∧ (encodeAll front).length = place := by
  induction chars generalizing place with
  | nil =>
      have only : isBoundary (encodeAll []) place = true ↔ place = 0 := by
        simp [isBoundary, encodeAll]
      rw [only]
      constructor
      · rintro rfl
        exact ⟨[], List.nil_prefix, rfl⟩
      · rintro ⟨front, part, rfl⟩
        rw [List.prefix_nil.1 part]
        rfl
  | cons c chars ih =>
      rcases Nat.lt_or_ge place (String.utf8EncodeChar c).length with inside | behind
      · -- Of the places before the next character only the first one is a start.
        obtain ⟨first, tail, bytes, -, -, further⟩ := (form_encodeChar c).parts
        have only : isBoundary (encodeAll (c :: chars)) place = true ↔ place = 0 := by
          rw [encodeAll_cons, bytes]
          rw [bytes] at inside
          cases place with
          | zero => simp [isBoundary]
          | succ place =>
              have short : place < tail.length := Nat.lt_of_succ_lt_succ inside
              have found : tail[place]? = some tail[place] := List.getElem?_eq_getElem short
              have continues : isContinuation tail[place] = true :=
                further _ (List.getElem_mem short)
              simp [isBoundary, List.getElem?_append_left short, found, continues]
        rw [only]
        constructor
        · rintro rfl
          exact ⟨[], List.nil_prefix, rfl⟩
        · rintro ⟨front, part, rfl⟩
          cases front with
          | nil => rfl
          | cons c' front =>
              obtain ⟨rfl, -⟩ := List.cons_prefix_cons.1 part
              rw [encodeAll_cons, List.length_append] at inside
              omega
      · obtain ⟨place, rfl⟩ := Nat.exists_eq_add_of_le behind
        rw [encodeAll_cons, isBoundary_append, ih]
        constructor
        · rintro ⟨front, part, rfl⟩
          exact ⟨c :: front, List.cons_prefix_cons.2 ⟨rfl, part⟩, by
            rw [encodeAll_cons, List.length_append]⟩
        · rintro ⟨front, part, length⟩
          cases front with
          | nil =>
              have positive := length_encodeChar_pos c
              rw [encodeAll, List.flatMap_nil, List.length_nil] at length
              omega
          | cons c' front =>
              obtain ⟨rfl, later⟩ := List.cons_prefix_cons.1 part
              rw [encodeAll_cons, List.length_append] at length
              exact ⟨front, later, Nat.add_left_cancel length⟩

end Utf8

end PeerWire
