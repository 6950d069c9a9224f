import PeerWire.Message.Outlet
import PeerWire.Proofs.Compression
import PeerWire.Proofs.FieldEncoding
import PeerWire.Proofs.Framing
import PeerWire.Proofs.MessageDecoding

/-! # Round trips

A message that was built is read back from its wire form exactly when it is in range
(`Message.read_toBytes_iff`): then every prefix says what stands after it, and otherwise no message
with these fields can come from any bytes. A body that was decoded is written back as it came,
except that feature vectors lose their leading zeros (`Message.reencode_of_decode`). -/

namespace PeerWire

/-! ## Built id lists -/

/-- The ways to come by a list of ids: plain, compressed by `compress`, or read from some bytes. -/
inductive IdList.Built (compress : Bytes → Bytes) : IdList → Prop where
  /-- A plain list. -/
  | plain (ids : List ShortChannelId) : Built compress (.plain ids)
  /-- A freshly compressed list. -/
  | zlib (ids : List ShortChannelId) : Built compress ⟨.zlib, ids, compress (concat ids)⟩
  /-- A list that was read. -/
  | decoded {source rest : Bytes} {list : IdList} :
      decoder source = .ok list rest → Built compress list

/-- The payload of a built list writes its ids, if it was not compressed from too many. -/
theorem IdList.Built.denotes {compress : Bytes → Bytes} (faithful : Zlib.Faithful compress)
    {list : IdList} (built : list.Built compress) (inflatable : list.Inflatable) :
    list.encoding.Denotes list.payload list.ids := by
  cases built with
  | plain ids => exact spellsIds_iff.2 rfl
  | zlib ids =>
      -- Decompressing succeeds under the limit, so the payload starts with a stream of the ids.
      have small : (concat ids).length ≤ inflateLimit := by
        rw [length_concat, Nat.mul_comm]
        exact inflatable rfl
      obtain ⟨-, stream, junk, whole, held⟩ :=
        Zlib.decompress_eq_ok_iff.1 (faithful (concat ids) inflateLimit small)
      exact .inr ⟨stream, junk, _, whole, held, small, spellsIds_iff.2 rfl⟩
  | decoded run =>
      obtain ⟨word, -, -, denoted⟩ := (IdList.accepts _ _ _).1 run
      exact denoted

/-- Values that can be come by. -/
def FieldType.Built (compress : Bytes → Bytes) : (type : FieldType) → type.Value → Prop
  | .idList, list => list.Built compress
  | _, _ => True

/-- Built values in range are written by their payload. -/
theorem FieldType.written_of_built {compress : Bytes → Bytes} (faithful : Zlib.Faithful compress)
    {type : FieldType} {value : type.Value} (built : type.Built compress value)
    (range : type.InRange value) : type.Written value := by
  cases type with
  | idList => exact IdList.Built.denotes faithful built range.2
  | _ => trivial

/-! ## Field lists -/

namespace Values

/-- Something `holds` of the value of every field. -/
def All (holds : (type : FieldType) → type.Value → Prop) : (fields : List Field) → Values fields →
    Prop
  | [], () => True
  | field :: fields, (value, values) => holds field.type value ∧ All holds fields values

/-- The wire form of each field. -/
def words : (fields : List Field) → Values fields → List Bytes
  | [], () => []
  | field :: fields, (value, values) => field.type.encode value :: words fields values

/-- The words as they are written, each one `field.type.canonical word`. -/
def canonicalWords (fields : List Field) (words : List Bytes) : List Bytes :=
  fields.zipWith (fun field word => field.type.canonical word) words

variable {holds holds' : (type : FieldType) → type.Value → Prop}

/-- What follows for each field follows for all. -/
theorem All.mono (each : ∀ type value, holds type value → holds' type value) {fields : List Field}
    {values : Values fields} (all : All holds fields values) : All holds' fields values := by
  induction fields with
  | nil => trivial
  | cons field fields ih => exact ⟨each _ _ all.1, ih all.2⟩

/-- Two properties of each field. -/
theorem All.and {fields : List Field} {values : Values fields} (all : All holds fields values)
    (all' : All holds' fields values) :
    All (fun type value => holds type value ∧ holds' type value) fields values := by
  induction fields with
  | nil => trivial
  | cons field fields ih => exact ⟨⟨all.1, all'.1⟩, ih all.2 all'.2⟩

/-- What follows from a word of each field follows from all words. -/
theorem Denotes.all (each : ∀ type word value, FieldType.Denotes type word value → holds type value)
    {fields : List Field} {words : List Bytes} {values : Values fields}
    (denoted : Denotes fields words values) : All holds fields values := by
  induction fields generalizing words with
  | nil => trivial
  | cons field fields ih =>
      obtain ⟨word, later, rfl, first, denoted⟩ := denoted
      exact ⟨each _ _ _ first, ih denoted⟩

/-- The wire forms of the fields make the wire form of them all. -/
@[simp] theorem flatten_words (fields : List Field) (values : Values fields) :
    (words fields values).flatten = encode fields values := by
  induction fields with
  | nil => rfl
  | cons field fields ih => rw [words, List.flatten_cons, ih, encode]

/-- The wire form of some fields is as long as `encodedLength fields values` says. -/
theorem length_encode (fields : List Field) (values : Values fields) :
    (encode fields values).length = encodedLength fields values := by
  induction fields with
  | nil => rfl
  | cons field fields ih =>
      rw [encode, List.length_append, FieldType.length_encode, ih, encodedLength]

/-- Fields in range are denoted by their wire forms, `words fields values`. -/
theorem denotes_words {fields : List Field} {values : Values fields}
    (range : All FieldType.InRange fields values) (written : All FieldType.Written fields values) :
    Denotes fields (words fields values) values := by
  induction fields with
  | nil => rfl
  | cons field fields ih =>
      exact ⟨_, _, rfl, FieldType.denotes_encode range.1 written.1, ih range.2 written.2⟩

/-- Denoted fields are written as their words in canonical form: `(canonicalWords fields
words).flatten`. -/
theorem Denotes.encode {fields : List Field} {words : List Bytes} {values : Values fields}
    (denoted : Denotes fields words values) :
    Values.encode fields values = (canonicalWords fields words).flatten := by
  induction fields generalizing words with
  | nil => rfl
  | cons field fields ih =>
      obtain ⟨word, later, rfl, first, denoted⟩ := denoted
      rw [Values.encode, FieldType.encode_of_denotes first, ih denoted]
      rfl

end Values

/-- Words are written back with at most as many bytes. -/
theorem Spelled.length_canonicalWords_le {fields : List Field} {words : List Bytes}
    (spelled : Spelled fields words) :
    (Values.canonicalWords fields words).flatten.length ≤ words.flatten.length := by
  induction spelled with
  | nil => exact Nat.le_refl _
  | @cons field word fields words inLanguage _ ih =>
      rw [Values.canonicalWords, List.zipWith_cons_cons, List.flatten_cons, List.flatten_cons,
        List.length_append, List.length_append]
      exact Nat.add_le_add (FieldType.length_canonical_le inLanguage) ih

/-- Words are written back as they are where there is no feature vector among them. -/
theorem Spelled.canonicalWords_eq {fields : List Field} {words : List Bytes}
    (spelled : Spelled fields words) (none : ∀ field ∈ fields, field.type ≠ .features) :
    Values.canonicalWords fields words = words := by
  induction spelled with
  | nil => rfl
  | @cons field word fields words inLanguage _ ih =>
      rw [Values.canonicalWords, List.zipWith_cons_cons,
        FieldType.canonical_of_ne (none field List.mem_cons_self),
        ← Values.canonicalWords, ih fun other later => none other (List.mem_cons_of_mem _ later)]

/-! ## Messages -/

/-- Two feature vectors are declared under the tag 16, one each under 256 and 257, and none under
another `kind.tag`. -/
theorem MessageKind.countP_features (kind : MessageKind) :
    kind.fields.countP (fun field => field.type = .features) =
      if kind.tag = 16 then 2 else if kind.tag = 256 ∨ kind.tag = 257 then 1 else 0 := by
  cases kind <;> decide

namespace Message

/-- A message that can be come by. -/
def Built (compress : Bytes → Bytes) : Message → Prop
  | .known kind contents _ => Values.All (FieldType.Built compress) kind.fields contents
  | .unknown _ _ => True

/-- Every field is in range, and an unknown tag is not in the catalogue, `ofTag? tag = none`. -/
def InRange : Message → Prop
  | .known kind contents _ => Values.All FieldType.InRange kind.fields contents
  | .unknown tag _ => MessageKind.ofTag? tag = none

/-- A message is read from a tag and what decodes under it. -/
theorem read_tag_append (tag : UInt16) (body : Bytes) :
    read (bigEndian 2 tag.toNat ++ body) = decode tag body := by
  rw [read, Decoder.accepts_u16.append (spells_bigEndian tag.toNat_lt)]

/-- A message in range whose payloads are written is decoded from its body, under `kind.tag`. -/
theorem decode_body_of_written {kind : MessageKind} {contents : Contents kind}
    (range : Values.All FieldType.InRange kind.fields contents)
    (written : Values.All FieldType.Written kind.fields contents) (extra : Bytes) :
    decode kind.tag (body (.known kind contents extra)) = .ok (.known kind contents extra) := by
  have run := decode_of_denotes (Values.denotes_words range written) extra
  rw [Values.flatten_words] at run
  exact run

/-- What is decoded is in range. -/
theorem inRange_of_decode {tag : UInt16} {body : Bytes} {message : Message}
    (run : decode tag body = .ok message) : message.InRange := by
  rcases decode_eq_ok_iff.1 run with ⟨foreign, rfl⟩ |
    ⟨kind, words, contents, extra, rfl, rfl, denoted, rfl⟩
  · exact foreign
  · exact denoted.all fun _ _ _ => FieldType.inRange_of_denotes

/-- A built message in range is decoded from its body: `decode message.tag message.body = .ok
message`. -/
theorem decode_body {compress : Bytes → Bytes} (faithful : Zlib.Faithful compress)
    {message : Message} (built : message.Built compress) (range : message.InRange) :
    decode message.tag message.body = .ok message := by
  cases message with
  | unknown tag body =>
      have foreign : MessageKind.ofTag? tag = none := range
      exact decode_eq_ok_iff.2 (.inl ⟨foreign, rfl⟩)
  | known kind contents extra =>
      refine decode_body_of_written range ((built.and range).mono ?_) extra
      intro type value both
      exact FieldType.written_of_built faithful both.1 both.2

/-- **A built message is read back from its wire form exactly when it is in range**: `read
message.toBytes = .ok message` just where `message.InRange`. -/
theorem read_toBytes_iff {compress : Bytes → Bytes} (faithful : Zlib.Faithful compress)
    {message : Message} (built : message.Built compress) :
    read message.toBytes = .ok message ↔ message.InRange := by
  rw [toBytes, read_tag_append]
  exact ⟨inRange_of_decode, decode_body faithful built⟩

/-- A query with a freshly compressed list is read back; an error with one byte too many is not. -/
theorem read_toBytes_query_and_error :
    let query : Message := .known .queryShortChannelIds (.zero, .zlib [⟨42⟩], ()) [7]
    let long : Message := .known .error (.zero, List.replicate 65536 0, ()) []
    Zlib.Faithful Zlib.compress ∧
      (query.Built Zlib.compress ∧ read query.toBytes = .ok query) ∧
      (long.Built Zlib.compress ∧ read long.toBytes ≠ .ok long) := by
  intro query long
  refine ⟨Zlib.faithful_compress, ?_, ?_⟩
  · have built : query.Built Zlib.compress := ⟨trivial, .zlib [⟨42⟩], trivial⟩
    refine ⟨built, (read_toBytes_iff Zlib.faithful_compress built).2 ?_⟩
    have short : (IdList.zlib [⟨42⟩]).payload.length ≤ 73 :=
      Zlib.length_compress_le (IdList.concat [⟨42⟩])
    exact ⟨trivial, ⟨Nat.le_trans short (by decide), fun _ => by decide⟩, trivial⟩
  · have built : long.Built Zlib.compress := ⟨trivial, trivial, trivial⟩
    refine ⟨built, ?_⟩
    intro run
    obtain ⟨-, small, -⟩ := (read_toBytes_iff Zlib.faithful_compress built).1 run
    have count : (List.replicate 65536 (0 : UInt8)).length = 65536 := List.length_replicate
    have : (List.replicate 65536 (0 : UInt8)).length ≤ 65535 := small
    omega

/-! ## Writing back what was read -/

/-- What decodes under a tag has the tag. -/
theorem tag_of_decode {tag : UInt16} {body : Bytes} {message : Message}
    (run : decode tag body = .ok message) : message.tag = tag := by
  rcases decode_eq_ok_iff.1 run with ⟨-, rfl⟩ | ⟨kind, words, contents, extra, rfl, -, -, rfl⟩
  · rfl
  · rfl

/-- What decodes is written back as it came, word by word in canonical form: from `words.flatten ++
extra` to `(canonicalWords kind.fields words).flatten ++ extra`. -/
theorem rewritten_of_decode {tag : UInt16} {body : Bytes} {message : Message}
    (run : decode tag body = .ok message) :
    (MessageKind.ofTag? tag = none ∧ message.body = body) ∨
      ∃ kind words extra, MessageKind.ofTag? tag = some kind ∧ Spelled kind.fields words ∧
        body = words.flatten ++ extra ∧
        message.body = (Values.canonicalWords kind.fields words).flatten ++ extra := by
  rcases decode_eq_ok_iff.1 run with ⟨foreign, rfl⟩ |
    ⟨kind, words, contents, extra, rfl, rfl, denoted, rfl⟩
  · exact .inl ⟨foreign, rfl⟩
  · refine .inr ⟨kind, words, extra, kind.ofTag?_tag,
      Values.exists_denotes_iff.1 ⟨contents, denoted⟩, rfl, ?_⟩
    rw [body, denoted.encode]

/-- What decodes is written back with at most as many bytes: `message.body.length ≤ body.length`. -/
theorem length_body_le {tag : UInt16} {body : Bytes} {message : Message}
    (run : decode tag body = .ok message) : message.body.length ≤ body.length := by
  rcases rewritten_of_decode run with ⟨-, same⟩ | ⟨kind, words, extra, -, spelled, rfl, written⟩
  · exact Nat.le_of_eq (congrArg List.length same)
  · rw [written, List.length_append, List.length_append]
    exact Nat.add_le_add_right spelled.length_canonicalWords_le extra.length

/-- What decodes under another tag than those of messages with feature vectors is written back as
it came. -/
theorem body_eq_of_decode {tag : UInt16} {body : Bytes} {message : Message}
    (run : decode tag body = .ok message) (init : tag ≠ 16) (channel : tag ≠ 256)
    (node : tag ≠ 257) : message.body = body := by
  rcases rewritten_of_decode run with ⟨-, same⟩ | ⟨kind, words, extra, found, spelled, rfl, written⟩
  · exact same
  · obtain rfl := MessageKind.tag_of_ofTag? found
    have count := kind.countP_features
    rw [if_neg init, if_neg (not_or.2 ⟨channel, node⟩)] at count
    rw [written, spelled.canonicalWords_eq]
    intro field member
    simpa using List.countP_eq_zero.1 count field member

/-- What was decoded decodes again from what it is written back as: `decode tag message.body = .ok
message`. -/
theorem decode_body_of_decode {tag : UInt16} {body : Bytes} {message : Message}
    (run : decode tag body = .ok message) : decode tag message.body = .ok message := by
  rcases decode_eq_ok_iff.1 run with ⟨foreign, rfl⟩ |
    ⟨kind, words, contents, extra, rfl, rfl, denoted, rfl⟩
  · exact run
  · exact decode_body_of_written (denoted.all fun _ _ _ => FieldType.inRange_of_denotes)
      (denoted.all fun _ _ _ => FieldType.written_of_denotes) extra

/-- A message whose frame fits is never called too large. -/
theorem send_ne_oversize {message : Message} {outlet : MessageOutlet}
    (fits : message.toFrame.Fits outlet.frames.limit) (size most : Nat) :
    (outlet.send message).1 ≠ .error (.frame (.oversize size most)) := by
  have frames := FrameOutlet.send_ne_oversize fits size most
  unfold MessageOutlet.send MessageOutlet.finish
  split
  · simp
  · rename_i cause next run
    rw [run] at frames
    simpa using frames

/-- **Nothing that is accepted is altered.** What decodes under a tag has the tag, and is written
back as it came but for the leading zeros of feature vectors (`Values.canonicalWords`), of which
only three kinds have any. It is never longer than it was, so that what came in a frame fits into
one again, and `decode tag message.body` is the same message. -/
theorem reencode_of_decode {tag : UInt16} {body : Bytes} {message : Message}
    (run : decode tag body = .ok message) :
    message.tag = tag ∧
    ((MessageKind.ofTag? tag = none ∧ message.body = body) ∨
      ∃ kind words extra, MessageKind.ofTag? tag = some kind ∧ Spelled kind.fields words ∧
        body = words.flatten ++ extra ∧
        message.body = (Values.canonicalWords kind.fields words).flatten ++ extra ∧
        kind.fields.countP (fun field => field.type = .features) =
          if tag = 16 then 2 else if tag = 256 ∨ tag = 257 then 1 else 0) ∧
    (tag ≠ 16 → tag ≠ 256 → tag ≠ 257 → message.body = body) ∧
    message.body.length ≤ body.length ∧
    (∀ buffer rest limit, Frame.takeFrom buffer limit = .ok (some (⟨tag, body⟩, rest)) →
      message.encodeFrame = .ok message.toFrame.toBytes ∧
      ∀ outlet : MessageOutlet, limit ≤ outlet.frames.limit → ∀ size most,
        (outlet.send message).1 ≠ .error (.frame (.oversize size most))) ∧
    decode tag message.body = .ok message := by
  have shorter : message.body.length ≤ body.length := length_body_le run
  -- A frame that was taken fits, and one with a body no longer fits as well.
  have framed (buffer rest : Bytes) (limit : Nat)
      (taken : Frame.takeFrom buffer limit = .ok (some (⟨tag, body⟩, rest))) :
      message.toFrame.Fits limit := by
    obtain ⟨-, said, keeps⟩ := Frame.takeFrom_eq_some_iff.1 taken
    have declared : message.toFrame.declaredLength ≤ Frame.declaredLength ⟨tag, body⟩ :=
      Nat.add_le_add_left shorter Frame.tagWidth
    exact ⟨Nat.le_trans declared said, Nat.le_trans declared keeps⟩
  refine ⟨tag_of_decode run, ?_, body_eq_of_decode run, shorter, ?_,
    decode_body_of_decode run⟩
  · rcases rewritten_of_decode run with same | ⟨kind, words, extra, found, spelled, whole, written⟩
    · exact .inl same
    · refine .inr ⟨kind, words, extra, found, spelled, whole, written, ?_⟩
      rw [kind.countP_features, MessageKind.tag_of_ofTag? found]
  · intro buffer rest limit taken
    have fits := framed buffer rest limit taken
    refine ⟨Frame.encode_of_fits fits, ?_⟩
    intro outlet keeps size most
    exact send_ne_oversize (fits.mono keeps) size most

/-- A padded feature vector loses its padding, and nothing else changes. -/
theorem reencode_padded_features :
    let body : Bytes := [0, 2, 0, 8, 0, 0, 5]
    let message : Message := .known .init (.ofBytes [8], .empty, ()) [5]
    decode 16 body = .ok message ∧ message.body = [0, 1, 8, 0, 0, 5] ∧
      message.tag = 16 ∧ message.body.length ≤ body.length ∧
        decode 16 message.body = .ok message := by
  intro body message
  have run : decode 16 body = .ok message := by decide
  obtain ⟨tag, -, -, shorter, -, again⟩ := reencode_of_decode run
  exact ⟨run, by decide, tag, shorter, again⟩

end Message

end PeerWire
