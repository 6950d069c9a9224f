import PeerWire.Proofs.MessageDecoding

/-! # Bodies that are cut short

A decoder *reports cuts* of a set of words when it fails for want of bytes on every part of a word
that lacks its end. The decoder of every type of field does so for the words of its grammar
(`FieldType.reportsCuts`): whatever else it checks, it looks first whether the bytes are there. A
message that is cut short is therefore always refused, and the error names the field in which the
bytes end (`Message.decode_take_of_decode`). -/

namespace PeerWire

namespace Decoder

variable {α β : Type}

/-! ## Decoders that report cuts -/

/-- A decoder that fails for want of bytes, by `truncated needed available` with `available <
needed`, on every part of a word that lacks its end. -/
def ReportsCuts (decoder : Decoder α) (language : Bytes → Prop) : Prop :=
  ∀ word, language word → ∀ part missing, word = part ++ missing → missing ≠ [] →
    ∃ needed available left,
      decoder part = .error (.truncated needed available) left ∧ available < needed

variable {decoder : Decoder α} {language language' : Bytes → Prop}

/-- What reports cuts of the words of `language` does so of fewer. -/
theorem ReportsCuts.mono (reports : decoder.ReportsCuts language)
    (fewer : ∀ word, language' word → language word) : decoder.ReportsCuts language' :=
  fun word inLanguage => reports word (fewer word inLanguage)

/-- The first step of `decoder >>= next` reports the cuts of what it takes. -/
theorem ReportsCuts.bind (reports : decoder.ReportsCuts language) (next : α → Decoder β) :
    (decoder >>= next).ReportsCuts language := by
  intro word inLanguage part missing whole lacks
  obtain ⟨needed, available, left, failed, short⟩ :=
    reports word inLanguage part missing whole lacks
  exact ⟨needed, available, left, bind_of_error failed, short⟩

/-- Converting a value does not change which cuts are reported. -/
theorem ReportsCuts.map (reports : decoder.ReportsCuts language) (convert : α → β) :
    (convert <$> decoder).ReportsCuts language := by
  intro word inLanguage part missing whole lacks
  obtain ⟨needed, available, left, failed, short⟩ :=
    reports word inLanguage part missing whole lacks
  refine ⟨needed, available, left, ?_, short⟩
  show EStateM.map convert decoder part = _
  rw [EStateM.map, failed]

/-- A part that lacks an end is shorter than the whole: `part.length < word.length`. -/
theorem length_lt_of_append {word part missing : Bytes} (whole : word = part ++ missing)
    (lacks : missing ≠ []) : part.length < word.length := by
  have some := List.length_pos_iff.2 lacks
  rw [whole, List.length_append]
  omega

/-- Taking `count` bytes reports the cuts of the words of that length. -/
theorem reportsCuts_take (count : Nat) :
    (take count).ReportsCuts fun word => word.length = count := by
  rintro word rfl part missing whole lacks
  have short := length_lt_of_append whole lacks
  exact ⟨word.length, part.length, part, take_of_length_lt short, short⟩

/-- A number reports the cuts of the words of its `width`. -/
theorem reportsCuts_number (width : Nat) :
    (number width).ReportsCuts fun word => word.length = width :=
  (reportsCuts_take width).bind _

/-- Checking for the bytes of a word first, by `ensure count`, reports its cuts, whatever comes
after the check. -/
theorem reportsCuts_ensure (count : Nat) (next : Unit → Decoder α) :
    (ensure count >>= next).ReportsCuts fun word => word.length = count := by
  rintro word rfl part missing whole lacks
  have short := length_lt_of_append whole lacks
  exact ⟨word.length, part.length, part, bind_of_error (ensure_of_length_lt short), short⟩

/-- Two byte strings that are cut, `first ++ second = part ++ missing`, lack the end of the first,
or only that of the second. -/
theorem append_eq_append_cases {first second part missing : Bytes}
    (whole : first ++ second = part ++ missing) :
    (∃ rest, first = part ++ rest ∧ rest ≠ []) ∨
      ∃ front, part = first ++ front ∧ second = front ++ missing := by
  rcases List.append_eq_append_iff.1 whole with ⟨front, rfl, rfl⟩ | ⟨rest, rfl, rfl⟩
  · exact .inr ⟨front, rfl, rfl⟩
  · by_cases complete : rest = []
    · subst complete
      exact .inr ⟨[], by simp, rfl⟩
    · exact .inl ⟨rest, rfl, complete⟩

/-- A two-byte count and what it heads: the cut is in the count, or in what comes after it. -/
theorem reportsCuts_headed (content : Nat → Bytes → Prop) {next : UInt16 → Decoder α}
    (later : ∀ count, (next count).ReportsCuts (content count.toNat)) :
    (u16 >>= next).ReportsCuts fun word =>
      ∃ count body, Headed count body word ∧ content count body := by
  rintro word ⟨count, body, ⟨size, spelled, rfl⟩, inContent⟩ part missing whole lacks
  rcases append_eq_append_cases whole with ⟨rest, cut, some⟩ | ⟨front, rfl, cut⟩
  · exact (((reportsCuts_number 2).map _).bind next) size spelled.1 part rest cut some
  · -- The count is all there, and says for how many bytes the next step asks.
    have fits : (UInt16.ofNat count).toNat = count :=
      UInt16.toNat_ofNat_of_lt' (spells_iff.1 spelled).2
    rw [← fits] at spelled inContent
    obtain ⟨needed, available, left, failed, short⟩ :=
      later _ body inContent front missing cut lacks
    refine ⟨needed, available, left, ?_, short⟩
    rw [bind_of_ok (accepts_u16.append spelled front), failed]

/-- A counted byte string reports its cuts. -/
theorem reportsCuts_bytes :
    bytes.ReportsCuts fun word => ∃ content, Headed content.length content word := by
  refine (reportsCuts_headed (fun count body => body.length = count) fun count =>
    (reportsCuts_take count.toNat).bind _).mono ?_
  rintro word ⟨content, headed⟩
  exact ⟨content.length, content, headed, rfl⟩

end Decoder

open Decoder

/-- A list of ids reports its cuts: that its bytes are there is checked before they are looked
at. -/
theorem IdList.reportsCuts :
    IdList.decoder.ReportsCuts fun word =>
      ∃ count body, Headed count body word ∧ body.length = count ∧ 0 < count := by
  refine reportsCuts_headed (fun count body => body.length = count ∧ 0 < count)
    fun count => ?_
  split
  · rename_i zero
    rintro word ⟨-, positive⟩
    rw [zero] at positive
    exact absurd positive (by decide)
  · exact (reportsCuts_ensure count.toNat _).mono fun word inContent => inContent.1

/-- **The decoder of every type of field reports the cuts of its words**: `type.decoder.ReportsCuts
type.Language`. -/
theorem FieldType.reportsCuts (type : FieldType) : type.decoder.ReportsCuts type.Language := by
  have number (width : Nat) := reportsCuts_number width
  cases type with
  | u8 => exact (number 1).map _
  | u16 => exact (number 2).map _
  | u32 => exact (number 4).map _
  | u64 => exact (number 8).map _
  | flag =>
      refine (((number 1).map _).bind _).mono ?_
      rintro word (rfl | rfl) <;> rfl
  | milliSatoshi => exact ((number 8).map _).map _
  | satoshi => exact ((number 8).map _).map _
  | feeRate => exact ((number 4).map _).map _
  | blob kind => exact (reportsCuts_take kind.width).map _
  | bytes => exact reportsCuts_bytes
  | features => exact reportsCuts_bytes.map _
  | signatures =>
      refine (reportsCuts_headed (fun count body => body.length = count * 64)
        fun count => reportsCuts_ensure _ _).mono ?_
      rintro word ⟨count, content, total, headed⟩
      exact ⟨count, content, headed, total⟩
  | shortChannelId => exact ((number 8).map _).map _
  | addresses =>
      refine (reportsCuts_bytes.bind _).mono ?_
      rintro word ⟨block, headed, -⟩
      exact ⟨block, headed⟩
  | idList =>
      refine IdList.reportsCuts.mono ?_
      rintro word (⟨payload, headed, -⟩ | ⟨payload, headed, -⟩)
      · exact ⟨_, _, headed, by rw [List.length_cons, Nat.add_comm], by omega⟩
      · exact ⟨_, _, headed, by rw [List.length_cons, Nat.add_comm], by omega⟩

/-- What is headed has at least the bytes of its count: `2 ≤ word.length`. -/
theorem Headed.two_le_length {count : Nat} {content word : Bytes}
    (headed : Headed count content word) : 2 ≤ word.length := by
  obtain ⟨size, spelled, rfl⟩ := headed
  rw [List.length_append, spelled.1]
  exact Nat.le_add_right 2 _

/-- No word is empty. -/
theorem FieldType.length_pos_of_language {type : FieldType} {word : Bytes}
    (inLanguage : type.Language word) : 0 < word.length := by
  have headed {count : Nat} {content : Bytes} (headed : Headed count content word) :
      0 < word.length :=
    Nat.lt_of_lt_of_le Nat.zero_lt_two headed.two_le_length
  have exact_width {width : Nat} (wide : word.length = width) (positive : 0 < width) :
      0 < word.length := by
    rw [wide]
    exact positive
  cases type with
  | u8 => exact exact_width inLanguage (by decide)
  | u16 => exact exact_width inLanguage (by decide)
  | u32 => exact exact_width inLanguage (by decide)
  | u64 => exact exact_width inLanguage (by decide)
  | flag =>
      rcases inLanguage with rfl | rfl
      · exact Nat.zero_lt_one
      · exact Nat.zero_lt_one
  | milliSatoshi => exact exact_width inLanguage (by decide)
  | satoshi => exact exact_width inLanguage (by decide)
  | feeRate => exact exact_width inLanguage (by decide)
  | blob kind => exact exact_width inLanguage (by cases kind <;> decide)
  | bytes => exact headed inLanguage.choose_spec
  | features => exact headed inLanguage.choose_spec
  | signatures =>
      obtain ⟨count, content, -, counted⟩ := inLanguage
      exact headed counted
  | shortChannelId => exact exact_width inLanguage (by decide)
  | addresses =>
      obtain ⟨block, sized, -⟩ := inLanguage
      exact headed sized
  | idList =>
      rcases inLanguage with ⟨payload, sized, -⟩ | ⟨payload, sized, -⟩
      · exact headed sized
      · exact headed sized

/-! ## Where fields start and end -/

/-- Where the word with number `index` starts when words stand one after the other; past the last
word, where they end. -/
def wordOffset (words : List Bytes) (index : Nat) : Nat := (words.take index).flatten.length

/-- The first word starts at the front. -/
@[simp] theorem wordOffset_zero (words : List Bytes) : wordOffset words 0 = 0 := by
  simp [wordOffset]

/-- A word in front moves the others. -/
@[simp] theorem wordOffset_cons_succ (word : Bytes) (words : List Bytes) (index : Nat) :
    wordOffset (word :: words) (index + 1) = word.length + wordOffset words index := by
  simp [wordOffset]

/-- The words of fields start one after the other: `wordOffset words index < wordOffset words (index
+ 1)`. -/
theorem Spelled.wordOffset_lt {fields : List Field} {words : List Bytes}
    (spelled : Spelled fields words) {index : Nat} (inside : index < fields.length) :
    wordOffset words index < wordOffset words (index + 1) := by
  induction spelled generalizing index with
  | nil => cases inside
  | @cons field word fields words inLanguage _ ih =>
      have positive := FieldType.length_pos_of_language inLanguage
      cases index with
      | zero =>
          rw [wordOffset_zero, wordOffset_cons_succ, wordOffset_zero]
          exact positive
      | succ index =>
          rw [wordOffset_cons_succ, wordOffset_cons_succ]
          exact Nat.add_lt_add_left (ih (Nat.lt_of_succ_lt_succ inside)) _

/-- Every place before the end of the words is in one of them. -/
theorem exists_wordOffset_le (words : List Bytes) {place : Nat}
    (before : place < wordOffset words words.length) :
    ∃ index < words.length, wordOffset words index ≤ place ∧
      place < wordOffset words (index + 1) := by
  induction words generalizing place with
  | nil => simp [wordOffset] at before
  | cons word words ih =>
      rw [List.length_cons, wordOffset_cons_succ] at before
      by_cases here : place < word.length
      · exact ⟨0, by simp, by simp, by simpa using here⟩
      · obtain ⟨index, inside, start, stop⟩ := @ih (place - word.length) (by omega)
        refine ⟨index + 1, by simpa using inside, ?_, ?_⟩
        · rw [wordOffset_cons_succ]
          omega
        · rw [wordOffset_cons_succ]
          omega

/-- Words cut within the one with number `index` are the words before it and a `part` of it. -/
theorem Spelled.take {fields : List Field} {words : List Bytes} (spelled : Spelled fields words)
    {index place : Nat} (start : wordOffset words index ≤ place)
    (stop : place < wordOffset words (index + 1)) (extra : Bytes) :
    ∃ prior field later before part missing, fields = prior ++ field :: later ∧
      prior.length = index ∧ Spelled prior before ∧ field.type.Language (part ++ missing) ∧
        missing ≠ [] ∧ (words.flatten ++ extra).take place = before.flatten ++ part := by
  induction spelled generalizing index place with
  | nil => simp [wordOffset] at stop
  | @cons field word fields words inLanguage _ ih =>
      rw [List.flatten_cons, List.append_assoc]
      cases index with
      | zero =>
          rw [wordOffset_cons_succ, wordOffset_zero, Nat.add_zero] at stop
          refine ⟨[], field, fields, [], word.take place, word.drop place, rfl, rfl, .nil, ?_, ?_,
            ?_⟩
          · rw [List.take_append_drop]
            exact inLanguage
          · rw [ne_eq, List.drop_eq_nil_iff]
            exact Nat.not_le_of_lt stop
          · rw [List.take_append_of_le_length (Nat.le_of_lt stop)]
            rfl
      | succ index =>
          rw [wordOffset_cons_succ] at start stop
          obtain ⟨prior, next, later, before, part, missing, rfl, number, spelled, inNext, lacks,
            cut⟩ := @ih index (place - word.length) (by omega) (by omega)
          refine ⟨field :: prior, next, later, word :: before, part, missing, rfl, ?_,
            .cons inLanguage spelled, inNext, lacks, ?_⟩
          · rw [List.length_cons, number]
          · rw [List.take_append, List.take_of_length_le (by omega), cut, List.flatten_cons,
              List.append_assoc]

/-! ## Messages cut short -/

namespace Message

/-- A body cut within the word of a field is refused by `truncated`, and at that field. -/
theorem decode_take_of_spelled {kind : MessageKind} {words : List Bytes}
    (spelled : Spelled kind.fields words) {index place : Nat} {field : Field}
    (declared : kind.fields[index]? = some field) (start : wordOffset words index ≤ place)
    (stop : place < wordOffset words (index + 1)) (extra : Bytes) :
    ∃ needed available, available < needed ∧
      decode kind.tag ((words.flatten ++ extra).take place) =
        .error (.field kind.name field.name index (.truncated needed available)) := by
  obtain ⟨prior, next, later, before, part, missing, fields, rfl, spelledBefore, inLanguage, lacks,
    cut⟩ := spelled.take start stop extra
  obtain ⟨needed, available, left, failed, short⟩ :=
    next.type.reportsCuts _ inLanguage part missing rfl lacks
  obtain rfl : next = field := by simpa [fields] using declared
  rw [cut]
  exact ⟨needed, available, short, decode_of_error fields spelledBefore failed⟩

/-- **A body that is cut short is refused, at the field in which it ends.** A decoded body is
`words.flatten ++ extra`, one word for each declared field and anything after them. The words denote
the fields of the message and start one after the other, so that every place before the end of the
last one is in exactly one of them. In `body.take place` it is refused by `truncated needed
available` with `available < needed`, and the error names the message, the field and its number. -/
theorem decode_take_of_decode {kind : MessageKind} {body : Bytes} {message : Message}
    (decoded : decode kind.tag body = .ok message) :
    ∃ words contents extra, body = words.flatten ++ extra ∧
      Values.Denotes kind.fields words contents ∧ message = .known kind contents extra ∧
      (wordOffset words 0 = 0 ∧
        (∀ index < kind.fields.length, wordOffset words index < wordOffset words (index + 1)) ∧
        wordOffset words kind.fields.length = words.flatten.length) ∧
      ∀ place < wordOffset words kind.fields.length,
        (∃ index < kind.fields.length, wordOffset words index ≤ place ∧
          place < wordOffset words (index + 1)) ∧
        ∀ index field, kind.fields[index]? = some field → wordOffset words index ≤ place →
          place < wordOffset words (index + 1) →
          ∃ needed available, available < needed ∧ decode kind.tag (body.take place) =
            .error (.field message.name field.name index (.truncated needed available)) := by
  rcases decode_eq_ok_iff.1 decoded with ⟨foreign, -⟩ |
    ⟨other, words, contents, extra, same, rfl, denoted, rfl⟩
  · rw [MessageKind.ofTag?_tag] at foreign
    cases foreign
  obtain rfl : kind = other := MessageKind.tag_injective same
  have spelled := Values.exists_denotes_iff.1 ⟨contents, denoted⟩
  have number : kind.fields.length = words.length := spelled.length_eq
  refine ⟨words, contents, extra, rfl, denoted, rfl, ⟨wordOffset_zero words, ?_, ?_⟩, ?_⟩
  · intro index inside
    exact spelled.wordOffset_lt inside
  · rw [number, wordOffset, List.take_length]
  · intro place before
    constructor
    · rw [number] at before ⊢
      exact exists_wordOffset_le words before
    · intro index field declared start stop
      exact decode_take_of_spelled spelled declared start stop extra

/-- A query for one channel is refused wherever it is cut: in its chain hash, or in the length, the
encoding byte or the only id of its list. Without its last byte, which is after the list, it is not
refused. -/
theorem decode_take_query :
    let body : Bytes := List.replicate 32 0 ++ [0, 9, 0, 0, 0, 0, 0, 0, 0, 0, 42] ++ [7]
    let query : Message := .known .queryShortChannelIds (.zero, .plain [⟨42⟩], ()) [7]
    decode 261 body = .ok query ∧
      (∀ place < 43, ∃ name position needed available, available < needed ∧
        decode 261 (body.take place) = .error
          (.field "query_short_channel_ids" name position (.truncated needed available))) ∧
      decode 261 (body.take 43) =
        .ok (.known .queryShortChannelIds (.zero, .plain [⟨42⟩], ()) []) := by
  intro body query
  have run : decode MessageKind.queryShortChannelIds.tag body = .ok query := by decide
  refine ⟨run, ?_, by decide⟩
  obtain ⟨words, contents, extra, whole, -, same, ⟨-, -, size⟩, cut⟩ := decode_take_of_decode run
  -- All but the last byte of the body are in the words of the fields.
  have after : [7] = extra := by
    injection same
  have total : words.flatten.length = 43 := by
    have length : 44 = words.flatten.length + extra.length := by
      rw [← List.length_append, ← whole]
      rfl
    rw [← after] at length
    exact (Nat.succ.inj length).symm
  intro place before
  rw [size, total] at cut
  obtain ⟨⟨index, inside, start, stop⟩, refused⟩ := cut place before
  obtain ⟨needed, available, short, error⟩ :=
    refused index _ (List.getElem?_eq_getElem inside) start stop
  exact ⟨_, index, needed, available, short, error⟩

end Message

end PeerWire
