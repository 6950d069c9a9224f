import PeerWire.NodeAlias
import PeerWire.Proofs.Characters
import PeerWire.Proofs.Primitives

/-! # Aliases and their texts

An alias has room for thirty-two bytes. The characters of a text that fit are its longest front part
that takes no more than that (`prefix_fittingChars`), and at most three bytes stay free although
there is more text (`le_length_fittingChars`). Where they end can also be found from the other side,
by going back from the thirty-second byte to one at which a character starts; every operation on
the way is defined (`NodeAlias.perform_rawOfText`). Read back, an alias gives the characters that it
holds but for null characters at their end, which cannot be told from the zeros behind them
(`NodeAlias.toText_ofText`). -/

namespace PeerWire

open Raw Utf8

variable {chars front : List Char} {room : Nat}

/-! ## The characters that fit -/

/-- They are a front part: `fittingChars room chars <+: chars`. -/
theorem fittingChars_prefix (room : Nat) (chars : List Char) :
    fittingChars room chars <+: chars := by
  fun_induction fittingChars room chars with
  | case1 => exact List.nil_prefix
  | case2 room c rest fits ih => exact List.cons_prefix_cons.2 ⟨rfl, ih⟩
  | case3 => exact List.nil_prefix

/-- **Every front part that fits is one of theirs**: `front <+: fittingChars room chars`. -/
theorem prefix_fittingChars (part : front <+: chars) (fits : (encodeAll front).length ≤ room) :
    front <+: fittingChars room chars := by
  fun_induction fittingChars room chars generalizing front with
  | case1 => exact part
  | case2 room c rest room_c ih =>
      cases front with
      | nil => exact List.nil_prefix
      | cons c' front =>
          obtain ⟨rfl, later⟩ := List.cons_prefix_cons.1 part
          rw [encodeAll_cons, List.length_append, String.length_utf8EncodeChar] at fits
          exact List.cons_prefix_cons.2 ⟨rfl, ih later (Nat.le_sub_of_add_le' fits)⟩
  | case3 room c rest wide =>
      cases front with
      | nil => exact List.nil_prefix
      | cons c' front =>
          obtain ⟨rfl, -⟩ := List.cons_prefix_cons.1 part
          rw [encodeAll_cons, List.length_append, String.length_utf8EncodeChar] at fits
          omega

/-- The room is used up to three bytes, if there is enough text. -/
theorem le_length_fittingChars (room : Nat) (chars : List Char) :
    min room (encodeAll chars).length ≤ (encodeAll (fittingChars room chars)).length + 3 := by
  fun_induction fittingChars room chars with
  | case1 => exact Nat.le_trans (Nat.min_le_right _ _) (Nat.zero_le _)
  | case2 room c rest fits ih =>
      simp only [encodeAll_cons, List.length_append, String.length_utf8EncodeChar]
      omega
  | case3 room c rest wide =>
      have four := c.utf8Size_le_four
      exact Nat.le_trans (Nat.min_le_left _ _) (by omega)

/-! ## Going back to a character -/

/-- Puts bytes over the first ones of an array; not defined if it has fewer. -/
def Raw.overwrite {ε : Type} {width : Nat} (array : Octets width) (content : Bytes) :
    Raw ε (Octets width) := fun buffer =>
  if fits : content.length ≤ width then
    some (.ok ⟨content ++ array.1.drop content.length, by
      rw [List.length_append, List.length_drop, array.2, Nat.add_sub_cancel' fits]⟩, buffer)
  else none

/-- Bytes that an array has room for can be put over its first ones. -/
theorem Raw.perform_overwrite {ε : Type} {width : Nat} {buffer content : Bytes}
    (array : Octets width) (fits : content.length ≤ width) :
    ∃ octets, (overwrite array content : Raw ε (Octets width)).perform buffer =
        some (.ok octets, buffer) ∧ octets.1 = content ++ array.1.drop content.length :=
  ⟨_, dif_pos fits, rfl⟩

namespace NodeAlias

variable {buffer : Bytes} {cut : Nat}

/-- One turn of the search for a place where a text can be cut: it is found, by `.inr`, or one byte
before. -/
def rawTurn (place : Nat) : Raw Empty (Nat ⊕ Nat) := do
  let buffer ← get
  if isBoundary buffer place then return .inr place
  else
    let before ← sub place 1
    return .inl before

/-- The alias that holds as much as fits of the text whose bytes are in the buffer. -/
def rawOfText : Raw Empty NodeAlias := do
  let buffer ← get
  let stop ← repeatM rawTurn (min buffer.length 32)
  let content ← slice 0 stop
  let octets ← overwrite (.zero 32) content
  return ⟨octets⟩

/-- **The search stops at the last place where a character starts**, `cut`, and never goes below
zero. -/
theorem perform_search (starts : isBoundary buffer cut = true) (distance : Nat)
    (between : ∀ place, cut < place → place ≤ cut + distance → isBoundary buffer place = false) :
    (repeatM rawTurn (cut + distance)).perform buffer = some (.ok cut, buffer) := by
  induction distance with
  | zero =>
      refine perform_repeatM_of_end ?_
      rw [rawTurn, perform_get_bind, Nat.add_zero, if_pos starts]
      rfl
  | succ distance ih =>
      have inside : isBoundary buffer (cut + (distance + 1)) = false :=
        between _ (Nat.lt_add_of_pos_right (Nat.succ_pos _)) (Nat.le_refl _)
      have down : 1 ≤ cut + (distance + 1) := Nat.le_add_left 1 (cut + distance)
      have turn : (rawTurn (cut + (distance + 1))).perform buffer =
          some (.ok (.inl (cut + distance)), buffer) := by
        rw [rawTurn, perform_get_bind, if_neg (by simp [inside]), sub_eq_pure down]
        rfl
      rw [perform_repeatM_of_again turn]
      exact ih fun place after before => between place after (Nat.le_succ_of_le before)

/-- The characters of a text that an alias keeps. -/
def keptChars (text : String) : List Char := fittingChars 32 text.toList

/-- They take no more than its 32 bytes: `(encodeAll (keptChars text)).length ≤ 32`. -/
theorem length_keptChars_le (text : String) : (encodeAll (keptChars text)).length ≤ 32 :=
  length_fittingChars_le 32 text.toList

/-- They are a front part of the text: `keptChars text <+: text.toList`. -/
theorem keptChars_prefix (text : String) : keptChars text <+: text.toList :=
  fittingChars_prefix 32 text.toList

/-- Every front part that fits is one of theirs. -/
theorem prefix_keptChars {text : String} (part : front <+: text.toList)
    (fits : (encodeAll front).length ≤ 32) : front <+: keptChars text :=
  prefix_fittingChars part fits

/-- So no front part that fits takes more bytes. -/
theorem length_le_keptChars {text : String} (part : front <+: text.toList)
    (fits : (encodeAll front).length ≤ 32) :
    (encodeAll front).length ≤ (encodeAll (keptChars text)).length := by
  obtain ⟨more, longer⟩ := prefix_keptChars part fits
  rw [← longer, encodeAll_append, List.length_append]
  exact Nat.le_add_right _ _

/-- An alias is the bytes of the characters that it keeps, `encodeAll (keptChars text)`, and
zeros. -/
theorem bytes_ofText (text : String) :
    (ofText text).bytes = encodeAll (keptChars text) ++
      List.replicate (32 - (encodeAll (keptChars text)).length) 0 := rfl

/-- **Every operation that makes an alias is defined**, on the bytes of any text: `rawOfText` gives
`ofText text`. -/
theorem perform_rawOfText (text : String) :
    rawOfText.perform (encodeAll text.toList) =
      some (.ok (ofText text), encodeAll text.toList) := by
  have few := length_keptChars_le text
  obtain ⟨back, parts⟩ := keptChars_prefix text
  have bytes : encodeAll text.toList = encodeAll (keptChars text) ++ encodeAll back := by
    rw [← encodeAll_append, parts]
  have inside : (encodeAll (keptChars text)).length ≤ (encodeAll text.toList).length := by
    rw [bytes, List.length_append]
    exact Nat.le_add_right _ _
  have starts : isBoundary (encodeAll text.toList) (encodeAll (keptChars text)).length = true :=
    isBoundary_encodeAll_iff.2 ⟨_, ⟨back, parts⟩, rfl⟩
  obtain ⟨distance, stop⟩ := Nat.exists_eq_add_of_le (Nat.le_min.2 ⟨inside, few⟩)
  -- A later place at which a character starts would be the end of more characters that fit.
  have between (place : Nat) (after : (encodeAll (keptChars text)).length < place)
      (before : place ≤ (encodeAll (keptChars text)).length + distance) :
      isBoundary (encodeAll text.toList) place = false := by
    rw [← stop, Nat.le_min] at before
    refine Bool.eq_false_iff.2 fun start => ?_
    obtain ⟨front, part, rfl⟩ := isBoundary_encodeAll_iff.1 start
    exact Nat.not_lt_of_le (length_le_keptChars part before.2) after
  have content : ((encodeAll text.toList).take (encodeAll (keptChars text)).length).drop 0 =
      encodeAll (keptChars text) := by
    rw [List.drop_zero, bytes]
    exact List.take_left
  have room : ∃ octets, (overwrite (.zero 32) (encodeAll (keptChars text)) :
      Raw Empty (Octets 32)).perform (encodeAll text.toList) =
        some (.ok octets, encodeAll text.toList) ∧ octets.1 = _ := perform_overwrite _ few
  obtain ⟨octets, overwritten, filled⟩ := room
  have same : octets = (ofText text).octets := by
    apply Subtype.ext
    rw [filled]
    show _ ++ (List.replicate 32 0).drop _ = _ ++ List.replicate _ 0
    rw [List.drop_replicate]
    rfl
  rw [rawOfText, perform_get_bind, stop, perform_bind_of_ok _ (perform_search starts _ between),
    perform_bind_of_ok _ (perform_slice (Nat.zero_le _) inside), content,
    perform_bind_of_ok _ overwritten, same]
  rfl

/-! ## Reading an alias back -/

/-- The characters that an alias gives back of a text: those that it keeps, up to the last one that
is no null character. -/
def shownChars (text : String) : List Char := (keptChars text).rdropWhile (· == '\x00')

/-- **An alias is read as the characters that it keeps**, without null characters at their end:
`shownChars text`. -/
theorem toText_ofText (text : String) : (ofText text).toText = String.ofList (shownChars text) := by
  rw [toText, bytes_ofText, trimZeros_append_zeros, trimZeros_encodeAll, decodeLossy_encodeAll]
  rfl

/-- A text of `utf8ByteSize ≤ 32` is all shown if no null character is at its end, and no other text
is. -/
theorem shownChars_eq_iff (text : String) :
    shownChars text = text.toList ↔
      text.utf8ByteSize ≤ 32 ∧ text.toList.getLast? ≠ some '\x00' := by
  have shown : shownChars text <+: keptChars text := List.rdropWhile_prefix _ _
  have part := keptChars_prefix text
  constructor
  · intro same
    have all : keptChars text = text.toList := part.eq_of_length_le (same ▸ shown.length_le)
    have few := length_keptChars_le text
    rw [all] at few
    refine ⟨length_encodeAll_toList text ▸ few, fun null => ?_⟩
    rw [shownChars, all, List.rdropWhile_eq_self_iff] at same
    obtain ⟨front, parts⟩ := List.getLast?_eq_some_iff.1 null
    have filled : text.toList ≠ [] := by simp [parts]
    exact same filled (by simp [parts])
  · rintro ⟨few, full⟩
    have all : keptChars text = text.toList :=
      part.eq_of_length_le
        (prefix_keptChars (List.prefix_refl _) (length_encodeAll_toList text ▸ few)).length_le
    rw [shownChars, all, List.rdropWhile_eq_self_iff]
    intro filled null
    exact full (by rw [List.getLast?_eq_some_getLast filled, eq_of_beq null])

/-- **A text survives in an alias up to the end of a character.** Every operation that makes the
alias is defined. What it holds is `kept`, the longest front part of the text with
`kept.utf8ByteSize ≤ 32`, filled up with zeros; of thirty-two bytes, or of all, no more than three
are given up. Read back it is that part without the null characters at its end, so that the text
comes back unchanged, `(ofText text).toText = text`, just where it takes no more than thirty-two
bytes and does not end in a null character. -/
theorem ofText_keeps_whole_characters (text : String) :
    rawOfText.perform text.toUTF8.toList = some (.ok (ofText text), text.toUTF8.toList) ∧
      (∃ kept dropped : String, text = kept ++ dropped ∧ kept.utf8ByteSize ≤ 32 ∧
        (∀ front back : String, text = front ++ back → front.utf8ByteSize ≤ 32 →
          front.utf8ByteSize ≤ kept.utf8ByteSize) ∧
        min 32 text.utf8ByteSize ≤ kept.utf8ByteSize + 3 ∧
        (ofText text).bytes =
          kept.toUTF8.toList ++ List.replicate (32 - kept.utf8ByteSize) 0 ∧
        (ofText text).toText = String.ofList (kept.toList.rdropWhile (· == '\x00'))) ∧
      ((ofText text).toText = text ↔
        text.utf8ByteSize ≤ 32 ∧ text.toList.getLast? ≠ some '\x00') := by
  refine ⟨?_, ?_, ?_⟩
  · rw [toList_toUTF8]
    exact perform_rawOfText text
  · obtain ⟨back, parts⟩ := keptChars_prefix text
    have size : (String.ofList (keptChars text)).utf8ByteSize =
        (encodeAll (keptChars text)).length := by
      rw [← length_encodeAll_toList, String.toList_ofList]
    refine ⟨String.ofList (keptChars text), String.ofList back, ?_, ?_, ?_, ?_, ?_, ?_⟩
    · rw [← String.ofList_append, parts, String.ofList_toList]
    · rw [size]
      exact length_keptChars_le text
    · intro front back' parts' fits
      rw [← length_encodeAll_toList] at fits
      have part : front.toList <+: text.toList := ⟨back'.toList, by
        rw [parts', String.toList_append]⟩
      rw [size, ← length_encodeAll_toList front]
      exact length_le_keptChars part fits
    · rw [size, ← length_encodeAll_toList text]
      exact le_length_fittingChars 32 text.toList
    · rw [toList_toUTF8, size, String.toList_ofList]
      exact bytes_ofText text
    · rw [String.toList_ofList]
      exact toText_ofText text
  · rw [toText_ofText, ← shownChars_eq_iff]
    constructor
    · intro same
      rw [← String.toList_ofList (l := shownChars text), same]
    · intro same
      rw [same, String.ofList_toList]

/-- A letter of two bytes is not kept when only one of them would fit. -/
example :
    (ofText "an alias that is just too long é").toText = "an alias that is just too long " := by
  cbv

end NodeAlias

end PeerWire
