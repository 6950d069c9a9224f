import PeerWire.Message.Basic
import PeerWire.Proofs.FieldDecoding

/-! # What message bodies decode to

A body of a kind of the catalogue is decoded exactly when it is made of one word for each declared
field, and anything after them. The words are determined by the body, so are their values, and an
error names the first field that no word in front of the remaining bytes can stand for. -/

namespace PeerWire

/-! ## Field lists -/

/-- Words that are in their languages denote values. -/
theorem Values.exists_denotes_iff {fields : List Field} {words : List Bytes} :
    (∃ values, Denotes fields words values) ↔ Spelled fields words := by
  induction fields generalizing words with
  | nil =>
      constructor
      · rintro ⟨⟨⟩, rfl⟩
        exact .nil
      · intro spelled
        cases spelled
        exact ⟨(), rfl⟩
  | cons field fields ih =>
      constructor
      · rintro ⟨⟨value, values⟩, word, later, rfl, denoted, rest⟩
        exact .cons ((field.type.language_iff word).2 ⟨value, denoted⟩) (ih.1 ⟨values, rest⟩)
      · intro spelled
        cases spelled with
        | cons inLanguage rest =>
            obtain ⟨value, denoted⟩ := (field.type.language_iff _).1 inLanguage
            obtain ⟨values, denotedRest⟩ := ih.2 rest
            exact ⟨(value, values), _, _, rfl, denoted, denotedRest⟩

/-- **A byte string is cut into words for given fields in at most one way**, and the words have at
most one value each: `words.flatten ++ rest` determines all three. -/
theorem Values.denotes_unique {fields : List Field} {words words' : List Bytes}
    {values values' : Values fields} {rest rest' : Bytes} (denoted : Denotes fields words values)
    (denoted' : Denotes fields words' values')
    (same : words.flatten ++ rest = words'.flatten ++ rest') :
    words = words' ∧ values = values' ∧ rest = rest' := by
  induction fields generalizing words words' with
  | nil =>
      obtain rfl : words = [] := denoted
      obtain rfl : words' = [] := denoted'
      exact ⟨rfl, rfl, same⟩
  | cons field fields ih =>
      obtain ⟨value, values⟩ := values
      obtain ⟨value', values'⟩ := values'
      obtain ⟨word, later, rfl, first, denoted⟩ := denoted
      obtain ⟨word', later', rfl, first', denoted'⟩ := denoted'
      rw [List.flatten_cons, List.flatten_cons, List.append_assoc, List.append_assoc] at same
      obtain ⟨rfl, rfl, same⟩ := field.type.accepts.unique same first first'
      obtain ⟨rfl, rfl, rfl⟩ := ih denoted denoted' same
      exact ⟨rfl, rfl, rfl⟩

/-- The same of words alone. -/
theorem Spelled.unique {fields : List Field} {words words' : List Bytes} {rest rest' : Bytes}
    (spelled : Spelled fields words) (spelled' : Spelled fields words')
    (same : words.flatten ++ rest = words'.flatten ++ rest') : words = words' ∧ rest = rest' := by
  obtain ⟨values, denoted⟩ := Values.exists_denotes_iff.2 spelled
  obtain ⟨values', denoted'⟩ := Values.exists_denotes_iff.2 spelled'
  obtain ⟨rfl, -, rfl⟩ := Values.denotes_unique denoted denoted' same
  exact ⟨rfl, rfl⟩

namespace FieldCursor

/-- Words in front of a byte string are read as their values: `readAll` stops behind
`words.flatten`. -/
theorem readAll_of_denotes {fields : List Field} {words : List Bytes} {values : Values fields}
    (denoted : Values.Denotes fields words values) (message : String) (position : Nat)
    (rest : Bytes) :
    readAll fields ⟨message, position, words.flatten ++ rest⟩ =
      .ok (values, ⟨message, position + fields.length, rest⟩) := by
  induction fields generalizing words position with
  | nil =>
      obtain rfl : words = [] := denoted
      rfl
  | cons field fields ih =>
      obtain ⟨value, values⟩ := values
      obtain ⟨word, later, rfl, first, denoted⟩ := denoted
      rw [List.flatten_cons, List.append_assoc, readAll, read]
      simp only [field.type.accepts.append first, ih denoted]
      rw [List.length_cons, Nat.add_right_comm, Nat.add_assoc]

/-- Reading stops at the first field whose decoder fails, and the error names it, with its place
among the fields. -/
theorem readAll_of_error {prior : List Field} (later : List Field) {field : Field}
    {words : List Bytes} {rest left : Bytes} {cause : CodecError} (spelled : Spelled prior words)
    (failed : field.type.decoder rest = .error cause left) (message : String) (position : Nat) :
    readAll (prior ++ field :: later) ⟨message, position, words.flatten ++ rest⟩ =
      .error (.field message field.name (position + prior.length) cause) := by
  induction spelled generalizing position with
  | nil =>
      rw [List.nil_append, List.flatten_nil, List.nil_append, readAll, read]
      simp only [failed]
      rfl
  | @cons first word prior words inLanguage _ ih =>
      obtain ⟨value, denoted⟩ := (first.type.language_iff word).1 inLanguage
      rw [List.cons_append, List.flatten_cons, List.append_assoc, readAll, read]
      simp only [first.type.accepts.append denoted, ih]
      rw [List.length_cons, Nat.add_right_comm, Nat.add_assoc]

/-- Every byte string is `words.flatten ++ rest` with words for all fields, or with words for some
of them and no word for the next one. -/
theorem spelled_or_error (fields : List Field) (source : Bytes) :
    (∃ words rest, Spelled fields words ∧ source = words.flatten ++ rest) ∨
      ∃ prior field later words rest cause left, fields = prior ++ field :: later ∧
        Spelled prior words ∧ source = words.flatten ++ rest ∧
          field.type.decoder rest = .error cause left := by
  induction fields generalizing source with
  | nil => exact .inl ⟨[], source, .nil, rfl⟩
  | cons field fields ih =>
      -- The first field decides whether it is the one that fails or the rest is looked at.
      cases run : field.type.decoder source with
      | error cause left =>
          exact .inr ⟨[], field, fields, [], source, cause, left, rfl, .nil, rfl, run⟩
      | ok value rest =>
          obtain ⟨word, rfl, denoted⟩ := (field.type.accepts _ _ _).1 run
          have inLanguage := (field.type.language_iff word).2 ⟨value, denoted⟩
          rcases ih rest with ⟨words, rest, spelled, rfl⟩ |
            ⟨prior, next, later, words, rest, cause, left, rfl, spelled, rfl, failed⟩
          · exact .inl ⟨word :: words, rest, .cons inLanguage spelled, by simp⟩
          · exact .inr ⟨field :: prior, next, later, word :: words, rest, cause, left, rfl,
              .cons inLanguage spelled, by simp, failed⟩

end FieldCursor

/-! ## Messages -/

/-- The tag of a kind names the kind. -/
@[simp] theorem MessageKind.ofTag?_tag (kind : MessageKind) : ofTag? kind.tag = some kind := by
  cases kind <;> rfl

/-- A tag that names a kind is its tag: `kind.tag = tag`. -/
theorem MessageKind.tag_of_ofTag? {tag : UInt16} {kind : MessageKind}
    (found : ofTag? tag = some kind) : kind.tag = tag := by
  simpa using List.find?_some found

/-- Different kinds have different tags. -/
theorem MessageKind.tag_injective : Function.Injective tag := by
  intro kind other same
  have found := ofTag?_tag kind
  rw [same, ofTag?_tag] at found
  exact (Option.some.inj found).symm

namespace Message

/-- A body of a kind is decoded by reading its fields. -/
theorem decode_tag (kind : MessageKind) (body : Bytes) :
    decode kind.tag body =
      match FieldCursor.readAll kind.fields ⟨kind.name, 0, body⟩ with
      | .error error => .error error
      | .ok (contents, cursor) => .ok (.known kind contents cursor.rest) := by
  have found := kind.ofTag?_tag
  rw [decode]
  generalize MessageKind.ofTag? kind.tag = result at found ⊢
  subst found
  rfl

/-- A body made of words and anything after them, `words.flatten ++ extra`, is decoded to their
values. -/
theorem decode_of_denotes {kind : MessageKind} {words : List Bytes} {contents : Contents kind}
    (denoted : Values.Denotes kind.fields words contents) (extra : Bytes) :
    decode kind.tag (words.flatten ++ extra) = .ok (.known kind contents extra) := by
  rw [decode_tag, FieldCursor.readAll_of_denotes denoted]

/-- A body of a kind fails to decode at the first field that there is no word for: the error names
`field` and how many stand before it. -/
theorem decode_of_error {kind : MessageKind} {prior later : List Field} {field : Field}
    {words : List Bytes} {rest left : Bytes} {cause : CodecError}
    (fields : kind.fields = prior ++ field :: later) (spelled : Spelled prior words)
    (failed : field.type.decoder rest = .error cause left) :
    decode kind.tag (words.flatten ++ rest) =
      .error (.field kind.name field.name prior.length cause) := by
  have run := FieldCursor.readAll_of_error later spelled failed kind.name 0
  rw [← fields, Nat.zero_add] at run
  rw [decode_tag, run]

/-- What is decoded is an unknown tag, kept as it is, or a kind whose words stand in front: `body =
words.flatten ++ extra`. -/
theorem decode_eq_ok_iff {tag : UInt16} {body : Bytes} {message : Message} :
    decode tag body = .ok message ↔
      (MessageKind.ofTag? tag = none ∧ message = .unknown tag body) ∨
      ∃ kind words contents extra, tag = kind.tag ∧ body = words.flatten ++ extra ∧
        Values.Denotes kind.fields words contents ∧ message = .known kind contents extra := by
  constructor
  · intro run
    cases found : MessageKind.ofTag? tag with
    | none =>
        rw [decode, found] at run
        exact .inl ⟨rfl, (Except.ok.inj run).symm⟩
    | some kind =>
        obtain rfl := MessageKind.tag_of_ofTag? found
        rcases FieldCursor.spelled_or_error kind.fields body with ⟨words, extra, spelled, rfl⟩ |
          ⟨prior, field, later, words, rest, cause, left, fields, spelled, rfl, failed⟩
        · obtain ⟨contents, denoted⟩ := Values.exists_denotes_iff.2 spelled
          rw [decode_of_denotes denoted] at run
          exact .inr ⟨kind, words, contents, extra, rfl, rfl, denoted, (Except.ok.inj run).symm⟩
        · rw [decode_of_error fields spelled failed] at run
          cases run
  · rintro (⟨foreign, rfl⟩ | ⟨kind, words, contents, extra, rfl, rfl, denoted, rfl⟩)
    · rw [decode, foreign]
    · exact decode_of_denotes denoted extra

/-- **The decoder accepts exactly the catalogue grammar.** A body is decoded exactly when `body =
words.flatten ++ extra` with `Spelled kind.fields words`, one word of each declared field in order
and anything after them. There is one way to cut it so; the fields are what the words denote
(`Values.Denotes`) and the rest is kept. Otherwise the error names the first field that no word in
front of the bytes left for it is in the `Language` of. -/
theorem decode_grammar (kind : MessageKind) (body : Bytes) :
    ((∃ message, decode kind.tag body = .ok message) ↔
      ∃ words extra, Spelled kind.fields words ∧ body = words.flatten ++ extra) ∧
    (∀ words extra, Spelled kind.fields words → body = words.flatten ++ extra →
      (∀ words' extra', Spelled kind.fields words' → body = words'.flatten ++ extra' →
        words' = words ∧ extra' = extra) ∧
      ∃ contents, Values.Denotes kind.fields words contents ∧
        (∀ contents', Values.Denotes kind.fields words contents' → contents' = contents) ∧
        decode kind.tag body = .ok (.known kind contents extra)) ∧
    ((¬∃ words extra, Spelled kind.fields words ∧ body = words.flatten ++ extra) →
      ∃ position field words rest cause left, kind.fields[position]? = some field ∧
        Spelled (kind.fields.take position) words ∧ body = words.flatten ++ rest ∧
        (∀ word, word <+: rest → ¬field.type.Language word) ∧
        field.type.decoder rest = .error cause left ∧
        decode kind.tag body = .error (.field kind.name field.name position cause)) := by
  -- Acceptance, the meaning of what is accepted, and the place of the error.
  refine ⟨?_, ?_, ?_⟩
  · constructor
    · rintro ⟨message, run⟩
      rcases decode_eq_ok_iff.1 run with ⟨foreign, -⟩ |
        ⟨other, words, contents, extra, same, rfl, denoted, -⟩
      · rw [MessageKind.ofTag?_tag] at foreign
        cases foreign
      · obtain rfl : kind = other := MessageKind.tag_injective same
        exact ⟨words, extra, Values.exists_denotes_iff.1 ⟨contents, denoted⟩, rfl⟩
    · rintro ⟨words, extra, spelled, rfl⟩
      obtain ⟨contents, denoted⟩ := Values.exists_denotes_iff.2 spelled
      exact ⟨_, decode_of_denotes denoted extra⟩
  · rintro words extra spelled rfl
    constructor
    · intro words' extra' spelled' same
      exact spelled'.unique spelled same.symm
    · obtain ⟨contents, denoted⟩ := Values.exists_denotes_iff.2 spelled
      refine ⟨contents, denoted, ?_, decode_of_denotes denoted extra⟩
      intro contents' denoted'
      have same : words.flatten ++ extra = words.flatten ++ extra := rfl
      exact (Values.denotes_unique denoted' denoted same).2.1
  · intro unspelled
    rcases FieldCursor.spelled_or_error kind.fields body with spelled |
      ⟨prior, field, later, words, rest, cause, left, fields, spelled, rfl, failed⟩
    · exact absurd spelled unspelled
    · refine ⟨prior.length, field, words, rest, cause, left, ?_, ?_, rfl, ?_, failed,
        decode_of_error fields spelled failed⟩
      · rw [fields, List.getElem?_append_right (Nat.le_refl _), Nat.sub_self,
          List.getElem?_cons_zero]
      · rw [fields, List.take_left]
        exact spelled
      · intro word start inLanguage
        obtain ⟨value, denoted⟩ := (field.type.language_iff word).1 inLanguage
        exact field.type.accepts.error_iff.1 ⟨cause, left, failed⟩ word start value denoted

end Message

end PeerWire
