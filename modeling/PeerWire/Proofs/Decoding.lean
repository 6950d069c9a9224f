import PeerWire.Codec.Decoder
import Mathlib.Data.List.Forall2

/-! # What decoders accept

A decoder *accepts* a relation between words and values when it succeeds exactly on the byte
strings that start with a word of the relation, gives the value of that word and leaves what comes
after it. Decoders are deterministic, so an accepted relation is unambiguous: no word of it starts
another, and every word has one value. The acceptance of a composed decoder is read off its
parts. -/

namespace PeerWire

/-- A number in a fixed number of bytes, most significant first: `ofBigEndian word = number`. -/
def Spells (width : Nat) (word : Bytes) (number : Nat) : Prop :=
  word.length = width ∧ ofBigEndian word = number

/-- A two-byte count and what it counts: `word = size ++ content`. -/
def Headed (count : Nat) (content word : Bytes) : Prop :=
  ∃ size, Spells 2 size count ∧ word = size ++ content

/-- The words that spell numbers are the big-endian forms of the numbers that fit: `word = bigEndian
width number`. -/
theorem spells_iff {width number : Nat} {word : Bytes} :
    Spells width word number ↔ word = bigEndian width number ∧ number < byteStringCount width := by
  constructor
  · rintro ⟨rfl, rfl⟩
    exact ⟨(bigEndian_ofBigEndian word).symm, ofBigEndian_lt word⟩
  · rintro ⟨rfl, small⟩
    refine ⟨length_bigEndian width number, ?_⟩
    rw [ofBigEndian_bigEndian, Nat.mod_eq_of_lt small]

/-- A number that fits is spelled by its big-endian form. -/
theorem spells_bigEndian {width number : Nat} (small : number < byteStringCount width) :
    Spells width (bigEndian width number) number :=
  spells_iff.2 ⟨rfl, small⟩

/-- What is headed has a count of two bytes: `count < 65536`. -/
theorem Headed.lt {count : Nat} {content word : Bytes} (headed : Headed count content word) :
    count < 65536 := by
  obtain ⟨size, spelled, -⟩ := headed
  exact (spells_iff.1 spelled).2

/-- The words with a head are the counts that fit, written in front: `Wire.length count ++
content`. -/
theorem headed_iff {count : Nat} {content word : Bytes} :
    Headed count content word ↔ word = Wire.length count ++ content ∧ count < 65536 := by
  constructor
  · intro headed
    have small := headed.lt
    obtain ⟨size, spelled, rfl⟩ := headed
    rw [(spells_iff.1 spelled).1]
    exact ⟨rfl, small⟩
  · rintro ⟨rfl, small⟩
    exact ⟨Wire.length count, spells_bigEndian small, rfl⟩

namespace Decoder

variable {α β : Type}

/-! ## Runs of composed decoders -/

/-- Two steps `first >>= next` succeed exactly when both do. -/
theorem bind_eq_ok_iff {first : Decoder α} {next : α → Decoder β} {source rest : Bytes}
    {value : β} :
    (first >>= next) source = .ok value rest ↔
      ∃ head middle, first source = .ok head middle ∧ next head middle = .ok value rest := by
  show EStateM.bind first next source = .ok value rest ↔ _
  unfold EStateM.bind
  cases first source <;> simp

/-- After a step that succeeds the next one runs on what is left. -/
theorem bind_of_ok {first : Decoder α} {next : α → Decoder β} {source rest : Bytes} {head : α}
    (run : first source = .ok head rest) : (first >>= next) source = next head rest := by
  show EStateM.bind first next source = next head rest
  rw [EStateM.bind, run]

/-- A step that fails ends what it is a part of. -/
theorem bind_of_error {first : Decoder α} {next : α → Decoder β} {source left : Bytes}
    {cause : CodecError} (failed : first source = .error cause left) :
    (first >>= next) source = .error cause left := by
  show EStateM.bind first next source = .error cause left
  rw [EStateM.bind, failed]

/-- A converted value comes from a value. -/
theorem map_eq_ok_iff {decoder : Decoder α} {convert : α → β} {source rest : Bytes} {value : β} :
    (convert <$> decoder) source = .ok value rest ↔
      ∃ raw, decoder source = .ok raw rest ∧ convert raw = value := by
  show EStateM.map convert decoder source = .ok value rest ↔ _
  unfold EStateM.map
  cases decoder source with
  | ok raw left =>
      simp only [EStateM.Result.ok.injEq]
      constructor
      · rintro ⟨same, rfl⟩
        exact ⟨raw, ⟨rfl, rfl⟩, same⟩
      · rintro ⟨_, ⟨rfl, rfl⟩, same⟩
        exact ⟨same, rfl⟩
  | error cause left => simp

/-- Returning takes nothing: what `pure` leaves is the whole source. -/
theorem pure_eq_ok_iff {source rest : Bytes} {given value : α} :
    (pure given : Decoder α) source = .ok value rest ↔ given = value ∧ source = rest := by
  show EStateM.Result.ok given source = .ok value rest ↔ _
  simp

/-- A failure gives no value. -/
theorem throw_ne_ok {cause : CodecError} {source rest : Bytes} {value : α} :
    (throw cause : Decoder α) source ≠ .ok value rest := by
  show EStateM.Result.error cause source ≠ .ok value rest
  simp

/-- That enough bytes are left is all that `ensure` looks at. -/
theorem ensure_eq_ok_iff {count : Nat} {source rest : Bytes} :
    ensure count source = .ok () rest ↔ count ≤ source.length ∧ source = rest := by
  unfold ensure
  rw [List.length_take]
  split
  · have : count ≤ source.length := by omega
    simp [this]
  · have : ¬count ≤ source.length := by omega
    simp [this]

/-- Bytes that are not there fail the check, with `.truncated count source.length`. -/
theorem ensure_of_length_lt {count : Nat} {source : Bytes} (short : source.length < count) :
    ensure count source = .error (.truncated count source.length) source := by
  rw [ensure, List.take_of_length_le (Nat.le_of_lt short), if_neg (Nat.ne_of_lt short)]

/-- Records do not fill a byte length that is no multiple of their width: the error is `.misaligned
length width`. -/
theorem records_of_not_dvd {length width : Nat} {item : Decoder α} {source : Bytes}
    (uneven : ¬width ∣ length) :
    records length width item source = .error (.misaligned length width) source := by
  rw [records, if_pos fun none => uneven (Nat.dvd_of_mod_eq_zero none)]
  rfl

/-- Nor do they if there are fewer bytes: the error is `.truncated length source.length`. -/
theorem records_of_length_lt {length width : Nat} {item : Decoder α} {source : Bytes}
    (divides : width ∣ length) (short : source.length < length) :
    records length width item source = .error (.truncated length source.length) source := by
  rw [records, if_neg fun beyond => beyond (Nat.mod_eq_zero_of_dvd divides)]
  exact bind_of_error (ensure_of_length_lt short)

/-- A number is read where its bytes are there, as `ofBigEndian (source.take width)`. -/
theorem number_of_le_length {width : Nat} {source : Bytes} (enough : width ≤ source.length) :
    number width source = .ok (ofBigEndian (source.take width)) (source.drop width) := by
  rw [number, bind_of_ok (take_of_le_length enough)]
  rfl

/-! ## Acceptance -/

/-- A decoder succeeds exactly on the byte strings that start with a word of the language, and
leaves what follows the word: `decoder source = .ok value rest` just where `source = word ++ rest`
with `language word value`. -/
def Accepts (decoder : Decoder α) (language : Bytes → α → Prop) : Prop :=
  ∀ source value rest,
    decoder source = .ok value rest ↔ ∃ word, source = word ++ rest ∧ language word value

variable {decoder : Decoder α} {language language' : Bytes → α → Prop}

/-- A word is taken off the front of whatever follows it: `decoder (word ++ rest) = .ok value
rest`. -/
theorem Accepts.append (accepts : decoder.Accepts language) {word : Bytes} {value : α}
    (spelled : language word value) (rest : Bytes) : decoder (word ++ rest) = .ok value rest :=
  (accepts _ _ _).2 ⟨word, rfl, spelled⟩

/-- **Accepted languages are unambiguous**: where `word ++ rest = word' ++ rest'`, the words, their
values and what comes after them are the same. -/
theorem Accepts.unique (accepts : decoder.Accepts language) {word word' rest rest' : Bytes}
    {value value' : α} (same : word ++ rest = word' ++ rest') (spelled : language word value)
    (spelled' : language word' value') : word = word' ∧ value = value' ∧ rest = rest' := by
  have run := accepts.append spelled rest
  rw [same, accepts.append spelled' rest'] at run
  obtain ⟨rfl, rfl⟩ := EStateM.Result.ok.inj run
  exact ⟨List.append_cancel_right same, rfl, rfl⟩

/-- A decoder fails exactly where no word starts: no `word <+: source` has a value. -/
theorem Accepts.error_iff (accepts : decoder.Accepts language) {source : Bytes} :
    (∃ cause left, decoder source = .error cause left) ↔
      ∀ word, word <+: source → ∀ value, ¬language word value := by
  constructor
  · rintro ⟨cause, left, failed⟩ word ⟨rest, rfl⟩ value spelled
    rw [accepts.append spelled rest] at failed
    cases failed
  · intro none
    cases run : decoder source with
    | error cause left => exact ⟨cause, left, rfl⟩
    | ok value rest =>
        obtain ⟨word, rfl, spelled⟩ := (accepts _ _ _).1 run
        exact absurd spelled (none word (List.prefix_append word rest) value)

/-- Acceptance only depends on what the language holds. -/
theorem Accepts.congr (accepts : decoder.Accepts language)
    (same : ∀ word value, language word value ↔ language' word value) :
    decoder.Accepts language' := by
  intro source value rest
  rw [accepts source value rest]
  exact exists_congr fun word => and_congr_right fun _ => same word value

/-- One decoder after another accepts the words made of two: `first ++ second`, where the value of
the first chooses the language of the second. -/
theorem Accepts.bind {next : α → Decoder β} {tail : α → Bytes → β → Prop}
    (accepts : decoder.Accepts language) (follows : ∀ value, (next value).Accepts (tail value)) :
    (decoder >>= next).Accepts fun word value =>
      ∃ first second head,
        word = first ++ second ∧ language first head ∧ tail head second value := by
  intro source value rest
  rw [bind_eq_ok_iff]
  constructor
  · rintro ⟨head, middle, hfirst, hsecond⟩
    obtain ⟨first, rfl, spelled⟩ := (accepts _ _ _).1 hfirst
    obtain ⟨second, rfl, spelled'⟩ := (follows head _ _ _).1 hsecond
    exact ⟨first ++ second, (List.append_assoc _ _ _).symm, first, second, head, rfl, spelled,
      spelled'⟩
  · rintro ⟨_, rfl, first, second, head, rfl, spelled, spelled'⟩
    refine ⟨head, second ++ rest, ?_, (follows head).append spelled' rest⟩
    rw [List.append_assoc]
    exact accepts.append spelled _

/-- A converted decoder `convert <$> decoder` accepts the same words, with converted values. -/
theorem Accepts.map (accepts : decoder.Accepts language) (convert : α → β) :
    (convert <$> decoder).Accepts fun word value =>
      ∃ raw, language word raw ∧ convert raw = value := by
  intro source value rest
  rw [map_eq_ok_iff]
  constructor
  · rintro ⟨raw, run, rfl⟩
    obtain ⟨word, rfl, spelled⟩ := (accepts _ _ _).1 run
    exact ⟨word, rfl, raw, spelled, rfl⟩
  · rintro ⟨word, rfl, raw, spelled, rfl⟩
    exact ⟨raw, accepts.append spelled rest, rfl⟩

/-- A decoder whose values are kept in another type accepts the same words. -/
theorem Accepts.wrap (accepts : decoder.Accepts language) {wrap : α → β} {unwrap : β → α}
    (there : ∀ raw, unwrap (wrap raw) = raw) (back : ∀ value, wrap (unwrap value) = value) :
    (wrap <$> decoder).Accepts fun word value => language word (unwrap value) := by
  refine (accepts.map wrap).congr fun word value => ?_
  constructor
  · rintro ⟨raw, spelled, rfl⟩
    rw [there]
    exact spelled
  · intro spelled
    exact ⟨unwrap value, spelled, back value⟩

/-- Returning accepts `[]`, the empty word. -/
theorem accepts_pure (given : α) :
    (pure given : Decoder α).Accepts fun word value => word = [] ∧ given = value := by
  intro source value rest
  rw [pure_eq_ok_iff]
  constructor
  · rintro ⟨rfl, rfl⟩
    exact ⟨[], rfl, rfl, rfl⟩
  · rintro ⟨_, rfl, rfl, rfl⟩
    exact ⟨rfl, rfl⟩

/-- A failure accepts nothing. -/
theorem accepts_throw (cause : CodecError) :
    (throw cause : Decoder α).Accepts fun _ _ => False := by
  intro source value rest
  simp [throw_ne_ok]

/-! ## Numbers and byte strings -/

/-- Taking bytes accepts every word of the length. -/
theorem accepts_take (count : Nat) : (take count).Accepts fun word front => word = front.1 := by
  intro source front rest
  constructor
  · intro run
    by_cases enough : count ≤ source.length
    · rw [take_of_le_length enough] at run
      obtain ⟨rfl, rfl⟩ := EStateM.Result.ok.inj run
      exact ⟨_, (List.take_append_drop count source).symm, rfl⟩
    · rw [take_of_length_lt (Nat.lt_of_not_le enough)] at run
      cases run
  · rintro ⟨_, rfl, rfl⟩
    exact take_append front rest

/-- A number is read from the words that spell it: `number width` accepts `Spells width`. -/
theorem accepts_number (width : Nat) : (number width).Accepts (Spells width) := by
  refine ((accepts_take width).bind fun front => accepts_pure _).congr fun word value => ?_
  constructor
  · rintro ⟨_, _, front, rfl, rfl, rfl, rfl⟩
    rw [List.append_nil]
    exact ⟨front.2, rfl⟩
  · rintro ⟨rfl, rfl⟩
    exact ⟨word, [], ⟨word, rfl⟩, (List.append_nil word).symm, rfl, rfl, rfl⟩

/-- A number kept in a type of its own is read from the words that spell it. -/
theorem accepts_word {width : Nat} {ofNat : Nat → α} {toNat : α → Nat}
    (back : ∀ value, ofNat (toNat value) = value)
    (fits : ∀ number, number < byteStringCount width → toNat (ofNat number) = number) :
    (ofNat <$> number width).Accepts fun word value => Spells width word (toNat value) := by
  refine ((accepts_number width).map ofNat).congr fun word value => ?_
  constructor
  · rintro ⟨raw, spelled, rfl⟩
    rw [fits raw (spells_iff.1 spelled).2]
    exact spelled
  · intro spelled
    exact ⟨toNat value, spelled, back value⟩

/-- A one-byte number is spelled by one byte. -/
theorem accepts_u8 : u8.Accepts fun word value => Spells 1 word value.toNat :=
  accepts_word (fun _ => UInt8.ofNat_toNat) fun _ small => UInt8.toNat_ofNat_of_lt' small

/-- A two-byte number is spelled by two bytes. -/
theorem accepts_u16 : u16.Accepts fun word value => Spells 2 word value.toNat :=
  accepts_word (fun _ => UInt16.ofNat_toNat) fun _ small => UInt16.toNat_ofNat_of_lt' small

/-- A four-byte number is spelled by four bytes. -/
theorem accepts_u32 : u32.Accepts fun word value => Spells 4 word value.toNat :=
  accepts_word (fun _ => UInt32.ofNat_toNat) fun _ small => UInt32.toNat_ofNat_of_lt' small

/-- An eight-byte number is spelled by eight bytes. -/
theorem accepts_u64 : u64.Accepts fun word value => Spells 8 word value.toNat :=
  accepts_word (fun _ => UInt64.ofNat_toNat) fun _ small => UInt64.toNat_ofNat_of_lt' small

/-- One byte spells itself. -/
theorem spells_one {word : Bytes} {byte : UInt8} : Spells 1 word byte.toNat ↔ word = [byte] := by
  constructor
  · rintro ⟨one, same⟩
    obtain ⟨other, rfl⟩ := List.length_eq_one_iff.1 one
    have : other.toNat = byte.toNat := by simpa [ofBigEndian] using same
    rw [UInt8.toNat_inj.1 this]
  · rintro rfl
    exact ⟨rfl, by simp [ofBigEndian]⟩

/-- A flag is the byte 0 or the byte 1. -/
theorem accepts_flag : flag.Accepts fun word value => word = [if value then 1 else 0] := by
  -- What is left to do after the byte takes nothing, and fails for all bytes but two.
  have step (byte : UInt8) : (if byte = 0 then pure false
      else if byte = 1 then pure true else throw (.invalid (.flag byte)) : Decoder Bool).Accepts
        fun word value => word = [] ∧ byte = if value then 1 else 0 := by
    split
    · refine (accepts_pure false).congr fun word value => and_congr_right fun _ => ?_
      cases value <;> simp_all
    · split
      · refine (accepts_pure true).congr fun word value => and_congr_right fun _ => ?_
        cases value <;> simp_all
      · refine (accepts_throw _).congr fun word value => ?_
        cases value <;> simp_all
  refine (accepts_u8.bind step).congr fun word value => ?_
  constructor
  · rintro ⟨first, _, byte, rfl, spelled, rfl, rfl⟩
    rw [List.append_nil]
    exact spells_one.1 spelled
  · rintro rfl
    exact ⟨_, [], _, rfl, spells_one.2 rfl, rfl, rfl⟩

/-- A counted byte string is headed by its length: `Headed content.length content word`. -/
theorem accepts_bytes : bytes.Accepts fun word content => Headed content.length content word := by
  refine (accepts_u16.bind fun length =>
    (accepts_take length.toNat).bind fun front => accepts_pure front.1).congr fun word content => ?_
  constructor
  · rintro ⟨size, _, length, rfl, spelled, _, _, front, rfl, rfl, rfl, rfl⟩
    rw [List.append_nil, front.2]
    exact ⟨size, spelled, rfl⟩
  · rintro ⟨size, spelled, rfl⟩
    have small := (spells_iff.1 spelled).2
    have fits : (UInt16.ofNat content.length).toNat = content.length :=
      UInt16.toNat_ofNat_of_lt' small
    refine ⟨size, content, UInt16.ofNat content.length, rfl, ?_, content, [],
      ⟨content, fits.symm⟩, (List.append_nil _).symm, rfl, rfl, rfl⟩
    rw [fits]
    exact spelled

/-- A two-byte number is read unless there are too few bytes for one, `source.length < 2`. -/
theorem u16_cases (source : Bytes) :
    (source.length < 2 ∧ u16 source = .error (.truncated 2 source.length) source) ∨
      ∃ (size part : Bytes) (count : UInt16),
        source = size ++ part ∧ Spells 2 size count.toNat ∧ u16 source = .ok count part := by
  by_cases enough : 2 ≤ source.length
  · right
    obtain ⟨count, part, run⟩ : ∃ count part, u16 source = .ok count part := by
      match source, enough with
      | high :: low :: part, _ => exact ⟨_, part, u16_cons_cons high low part⟩
    obtain ⟨size, whole, spelled⟩ := (accepts_u16 source count part).1 run
    exact ⟨size, part, count, whole, spelled, run⟩
  · left
    have short : source.length < 2 := Nat.lt_of_not_le enough
    have failed : number 2 source = .error (.truncated 2 source.length) source :=
      bind_of_error (take_of_length_lt short)
    refine ⟨short, ?_⟩
    show EStateM.map UInt16.ofNat (number 2) source = _
    rw [EStateM.map, failed]

/-- A counted byte string is read unless its count or what is counted is cut short. -/
theorem bytes_cases (source : Bytes) :
    (source.length < 2 ∧ bytes source = .error (.truncated 2 source.length) source) ∨
    (∃ size part count, source = size ++ part ∧ Spells 2 size count ∧ part.length < count ∧
      bytes source = .error (.truncated count part.length) part) ∨
    ∃ size content rest, source = size ++ (content ++ rest) ∧ Spells 2 size content.length ∧
      bytes source = .ok content rest := by
  rcases u16_cases source with ⟨short, failed⟩ | ⟨size, part, count, rfl, spelled, run⟩
  · exact .inl ⟨short, bind_of_error failed⟩
  · by_cases enough : count.toNat ≤ part.length
    · -- The content is what the count says, and comes back as it is.
      have wide : (part.take count.toNat).length = count.toNat := List.length_take_of_le enough
      rw [← wide] at spelled
      refine .inr (.inr ⟨size, part.take count.toNat, part.drop count.toNat, ?_, spelled, ?_⟩)
      · rw [List.take_append_drop]
      · rw [bytes, bind_of_ok run, bind_of_ok (take_of_le_length enough)]
        rfl
    · have short : part.length < count.toNat := Nat.lt_of_not_le enough
      refine .inr (.inl ⟨size, part, count.toNat, rfl, spelled, short, ?_⟩)
      rw [bytes, bind_of_ok run, bind_of_error (take_of_length_lt short)]

/-! ## Runs of items -/

/-- That enough bytes are left need not be checked where every word is long enough. -/
theorem Accepts.ensure (accepts : decoder.Accepts language) (count : Nat)
    (long : ∀ word value, language word value → count ≤ word.length) :
    (Decoder.ensure count >>= fun _ => decoder).Accepts language := by
  intro source value rest
  rw [bind_eq_ok_iff]
  constructor
  · rintro ⟨_, middle, checked, run⟩
    rw [(ensure_eq_ok_iff.1 checked).2]
    exact (accepts _ _ _).1 run
  · rintro ⟨word, rfl, spelled⟩
    refine ⟨(), word ++ rest, ensure_eq_ok_iff.2 ⟨?_, rfl⟩, accepts.append spelled rest⟩
    have := long word value spelled
    rw [List.length_append]
    omega

section Items

variable {item : Decoder α} {form : α → Bytes}
  (accepts : item.Accepts fun word value => word = form value)

include accepts

/-- Repeating an item accepts the forms of as many items, one after the other: `items.flatMap
form`. -/
theorem accepts_repeatItem (count : Nat) (done : List α) :
    (repeatItem item count done).Accepts fun word values =>
      ∃ items : List α, items.length = count ∧ word = items.flatMap form ∧
        done.reverse ++ items = values := by
  induction count generalizing done with
  | zero =>
      refine (accepts_pure done.reverse).congr fun word values => ?_
      constructor
      · rintro ⟨rfl, rfl⟩
        exact ⟨[], rfl, rfl, List.append_nil _⟩
      · rintro ⟨items, none, rfl, rfl⟩
        rw [List.length_eq_zero_iff.1 none]
        exact ⟨rfl, (List.append_nil _).symm⟩
  | succ count ih =>
      refine (accepts.bind fun value => ih (value :: done)).congr fun word values => ?_
      constructor
      · rintro ⟨_, _, value, rfl, rfl, items, rfl, rfl, rfl⟩
        exact ⟨value :: items, rfl, rfl, by simp⟩
      · rintro ⟨items, number, rfl, rfl⟩
        obtain ⟨value, items, rfl⟩ := List.exists_cons_of_length_eq_add_one number
        exact ⟨form value, items.flatMap form, value, rfl, rfl, items,
          Nat.succ.inj number, rfl, by simp⟩

/-- Repeating an item from the start gives the items themselves. -/
theorem accepts_repeatItem_nil (count : Nat) :
    (repeatItem item count []).Accepts fun word values =>
      values.length = count ∧ word = values.flatMap form := by
  refine (accepts_repeatItem accepts count []).congr fun word values => ?_
  constructor
  · rintro ⟨items, number, rfl, rfl⟩
    exact ⟨number, rfl⟩
  · rintro ⟨number, rfl⟩
    exact ⟨values, number, rfl, rfl⟩

variable {width : Nat} (even : ∀ value, (form value).length = width)

include even

omit accepts in
/-- Items of one width take the width times their number: `values.length * width`. -/
theorem length_flatMap_form (values : List α) :
    (values.flatMap form).length = values.length * width := by
  induction values with
  | nil => simp
  | cons value values ih =>
      rw [List.flatMap_cons, List.length_append, even, ih, List.length_cons]
      rw [Nat.succ_mul, Nat.add_comm]

/-- Counted items are headed by their number: `Headed values.length (values.flatMap form) word`. -/
theorem accepts_counted :
    (counted width item).Accepts fun word values =>
      Headed values.length (values.flatMap form) word := by
  -- The check that comes first asks for what the items need anyway.
  have follows (count : UInt16) := (accepts_repeatItem_nil accepts count.toNat).ensure
    (count.toNat * width) fun word values => by
      rintro ⟨number, rfl⟩
      exact Nat.le_of_eq (by rw [length_flatMap_form even, number])
  refine (accepts_u16.bind follows).congr fun word values => ?_
  constructor
  · rintro ⟨size, _, count, rfl, spelled, number, rfl⟩
    rw [number]
    exact ⟨size, spelled, rfl⟩
  · rintro ⟨size, spelled, rfl⟩
    have fits : (UInt16.ofNat values.length).toNat = values.length :=
      UInt16.toNat_ofNat_of_lt' (spells_iff.1 spelled).2
    refine ⟨size, _, UInt16.ofNat values.length, rfl, ?_, fits.symm, rfl⟩
    rw [fits]
    exact spelled

/-- The items of a byte length are as many as the length has room for, with nothing left over: `word
= values.flatMap form` with `word.length = length`. -/
theorem accepts_records (positive : 0 < width) (length : Nat) :
    (records length width item).Accepts fun word values =>
      word.length = length ∧ word = values.flatMap form := by
  unfold records
  split
  · rename_i uneven
    refine (accepts_throw _).congr fun word values => ?_
    constructor
    · exact False.elim
    · rintro ⟨rfl, rfl⟩
      rw [length_flatMap_form even, Nat.mul_mod_left] at uneven
      exact absurd rfl uneven
  · rename_i divides
    have whole : length / width * width = length :=
      Nat.div_mul_cancel (Nat.dvd_of_mod_eq_zero (Decidable.not_not.1 divides))
    refine ((accepts_repeatItem_nil accepts (length / width)).ensure length
      fun word values => ?_).congr fun word values => ?_
    · rintro ⟨number, rfl⟩
      exact Nat.le_of_eq (by rw [length_flatMap_form even, number, whole])
    · constructor
      · rintro ⟨number, rfl⟩
        exact ⟨by rw [length_flatMap_form even, number, whole], rfl⟩
      · rintro ⟨total, rfl⟩
        rw [length_flatMap_form even] at total
        refine ⟨?_, rfl⟩
        rw [← total, Nat.mul_div_cancel _ positive]

end Items

end Decoder

end PeerWire
