import PeerWire.Message.LinkError
import PeerWire.Proofs.Naming
import PeerWire.Proofs.Numerals
import Mathlib.Data.List.Infix

/-! # What error texts say

The text of an error is made for reading. `Tells cause.facts text` says what has to stand in it: the
names, the numbers and a word for the kind of the error, wherever they are. Every text tells that
of its error: `Tells cause.facts cause.message` (`LinkError.tells_message`). What is told of a body
that cannot be read stands on one line, as the names of messages and fields have no line feed
(`Message.oneLine_of_decode_error`). -/

namespace PeerWire

/-! ## Facts -/

/-- A part stands somewhere in a text: `part.toList <:+: text.toList`. -/
def Has (text part : String) : Prop := part.toList <:+: text.toList

/-- All that is to be told stands in a text: it `Has` every fact. -/
def Tells (facts : List String) (text : String) : Prop := ∀ fact ∈ facts, Has text fact

/-- What is to be told of a value that is not allowed. -/
def ValueError.facts : ValueError → List String
  | .flag byte => [toString byte.toNat]
  | .missingIdEncoding => ["missing"]
  | .unknownIdEncoding byte => [toString byte.toNat]
  | .unknownAddress descriptor => [toString descriptor.toNat]
  | .compressedIds .corrupt _ => ["corrupt"]
  | .compressedIds .incomplete _ => ["incomplete"]
  | .compressedIds .overLimit limit => [toString limit]
  | .pongTooLong bytes limit => [toString bytes, toString limit]
  | .paddingTooLong bytes limit => [toString bytes, toString limit]

/-- What is to be told of bytes that are no field. -/
def CodecError.facts : CodecError → List String
  | .truncated needed available => ["truncated", toString needed, toString available]
  | .misaligned length width => ["multiple", toString length, toString width]
  | .invalid cause => "invalid" :: cause.facts

/-- What is to be told of bytes that are no message. -/
def DecodeError.facts : DecodeError → List String
  | .tag cause => "type" :: cause.facts
  | .field message name position cause => message :: toString position :: name :: cause.facts

/-- What is to be told of bytes that are no frame. -/
def FrameError.facts : FrameError → List String
  | .oversize size limit => ["large", toString size, toString limit]
  | .tooShort length => ["shorter", toString length]
  | .truncated expected available => ["truncated", toString available, toString expected]
  | .transport fault => ["I/O", fault.message]
  | .closed => ["closed"]

/-- What is to be told of a stream that gives no message. -/
def LinkError.facts : LinkError → List String
  | .frame cause => "frame" :: cause.facts
  | .decode tag cause => "malformed" :: toString tag.toNat :: cause.facts
  | .skippedTooMany count => ["gave up", toString count]

/-! ## Texts that tell them -/

variable {facts : List String} {part text front back : String}

/-- A text has itself as a part. -/
@[simp, grind .] theorem Has.self : Has part part := List.infix_rfl

/-- A part of `front` is one of `front ++ back`. -/
@[grind ←] theorem Has.left (has : Has front part) : Has (front ++ back) part := by
  rw [Has, String.toList_append]
  exact has.trans (List.prefix_append _ _).isInfix

/-- A part of `back` is one of `front ++ back`. -/
@[grind ←] theorem Has.right (has : Has back part) : Has (front ++ back) part := by
  rw [Has, String.toList_append]
  exact has.trans (List.suffix_append _ _).isInfix

/-- Parts are found by looking for them at every place of a text, with `isPrefixOf`. -/
theorem has_iff : Has text part ↔ text.toList.tails.any part.toList.isPrefixOf = true := by
  simp only [Has, List.infix_iff_prefix_suffix, List.any_eq_true, List.mem_tails,
    List.isPrefixOf_iff_prefix, and_comm]

instance (text part : String) : Decidable (Has text part) := decidable_of_iff' _ has_iff

/-- There is nothing to tell. -/
@[simp] theorem tells_nil : Tells [] text := List.forall_mem_nil _

/-- Facts are told one by one. -/
@[simp] theorem tells_cons : Tells (part :: facts) text ↔ Has text part ∧ Tells facts text :=
  List.forall_mem_cons

/-- What `back` tells is told by `front ++ back`. -/
@[grind ←] theorem Tells.right (told : Tells facts back) : Tells facts (front ++ back) :=
  fun fact member => (told fact member).right

/-- A text is its own text. -/
theorem toString_text (text : String) : toString text = text := rfl

/-- The text of a value that is not allowed tells why. -/
theorem ValueError.tells_message (cause : ValueError) : Tells cause.facts cause.message := by
  have missing : Has "short channel id list is missing its encoding byte" "missing" := by decide
  have corrupt : Has "zlib: corrupt deflate stream" "corrupt" := by decide
  have incomplete : Has "zlib: incomplete deflate stream" "incomplete" := by decide
  -- The texts are put together from pieces, so that only the words are looked for.
  cases cause with
  | compressedIds fault =>
      cases fault <;> delta facts message <;>
        simp only [tells_cons, tells_nil, and_true, toString_text] <;> grind
  | _ => delta facts message; simp only [tells_cons, tells_nil, and_true, toString_text]; grind

/-- The text of bytes that are no field tells why. -/
theorem CodecError.tells_message (cause : CodecError) : Tells cause.facts cause.message := by
  have truncated : Has "truncated input (needed " "truncated" := by decide
  have multiple : Has " is not a multiple of the " "multiple" := by decide
  have invalid : Has "invalid field value: " "invalid" := by decide
  have value := ValueError.tells_message
  cases cause <;> delta facts message <;>
    simp only [tells_cons, tells_nil, and_true, toString_text] <;> grind

/-- The text of bytes that are no message tells why: `Tells cause.facts cause.message`. -/
theorem DecodeError.tells_message (cause : DecodeError) : Tells cause.facts cause.message := by
  have type : Has "cannot read message type: " "type" := by decide
  have codec := CodecError.tells_message
  cases cause <;> delta facts message <;> simp only [tells_cons, toString_text] <;> grind

/-- The text of bytes that are no frame tells why. -/
theorem FrameError.tells_message (cause : FrameError) : Tells cause.facts cause.message := by
  have large : Has "frame too large (" "large" := by decide
  have shorter : Has " is shorter than the " "shorter" := by decide
  have truncated : Has "truncated frame (" "truncated" := by decide
  have transport : Has "frame I/O error: " "I/O" := by decide
  have closed : Has "connection closed" "closed" := by decide
  cases cause <;> delta facts message <;>
    simp only [tells_cons, tells_nil, and_true, toString_text] <;> grind

/-- **The text of a stream error tells what was wrong**: `Tells cause.facts cause.message`. -/
theorem LinkError.tells_message (cause : LinkError) : Tells cause.facts cause.message := by
  have frame : Has "frame error: " "frame" := by decide
  have malformed : Has "malformed message (type " "malformed" := by decide
  have gaveUp : Has "gave up after skipping " "gave up" := by decide
  have unframed := FrameError.tells_message
  have undecoded := DecodeError.tells_message
  cases cause <;> delta facts message <;>
    simp only [tells_cons, tells_nil, and_true, toString_text] <;> grind

/-! ## Texts on one line -/

/-- A text has no line feed: `'\n' ∉ text.toList`. -/
def OneLine (text : String) : Prop := '\n' ∉ text.toList

instance (text : String) : Decidable (OneLine text) := inferInstanceAs (Decidable (_ ∉ _))

/-- Lines are put together to a line. -/
@[simp] theorem oneLine_append : OneLine (front ++ back) ↔ OneLine front ∧ OneLine back := by
  rw [OneLine, String.toList_append, List.mem_append, not_or, OneLine, OneLine]

/-- A number stands on one line. -/
@[simp] theorem oneLine_toString (number : Nat) : OneLine (toString number) := by
  rw [OneLine, Nat.toString_eq_repr, Nat.toList_repr]
  exact (Text.numeral_toDigits number).not_mem (by decide) (by decide)

/-- The text of a value that is not allowed stands on one line. -/
theorem ValueError.oneLine_message (cause : ValueError) : OneLine cause.message := by
  cases cause with
  | compressedIds fault =>
      cases fault <;> delta message <;>
        simp +decide only [oneLine_append, oneLine_toString, toString_text]
  | _ => delta message; simp +decide only [oneLine_append, oneLine_toString, toString_text]

/-- The text of bytes that are no field stands on one line. -/
theorem CodecError.oneLine_message (cause : CodecError) : OneLine cause.message := by
  cases cause <;> delta message <;>
    simp +decide only [oneLine_append, oneLine_toString, toString_text, ValueError.oneLine_message]

/-- The text of bytes that are no frame stands on one line. -/
theorem FrameError.oneLine_message (cause : FrameError) : OneLine cause.message := by
  have faults (fault : TransportFault) : OneLine fault.message := by cases fault <;> decide
  cases cause <;> delta message <;>
    simp +decide only [oneLine_append, oneLine_toString, toString_text, faults]

/-- The text of bytes that are no message stands on one line if the names in it do. -/
theorem DecodeError.oneLine_message_field {message name : String} (position : Nat)
    (cause : CodecError) (one : OneLine message) (two : OneLine name) :
    OneLine (DecodeError.field message name position cause).message := by
  delta DecodeError.message
  simp +decide only [oneLine_append, oneLine_toString, toString_text, one, two,
    cause.oneLine_message]

/-- The names of messages and of their fields stand on one line. -/
theorem MessageKind.oneLine_names (kind : MessageKind) :
    OneLine kind.name ∧ ∀ field ∈ kind.fields, OneLine field.name := by
  cases kind <;> decide +kernel

/-- A body that cannot be read fails at a field of the kind that its tag names: `cause` is of the
form `.field kind.name field.name position reason`. -/
theorem Message.field_of_decode_error {tag : UInt16} {body : Bytes} {cause : DecodeError}
    (run : decode tag body = .error cause) :
    ∃ (kind : MessageKind) (field : Field) (position : Nat) (reason : CodecError),
      field ∈ kind.fields ∧ cause = .field kind.name field.name position reason := by
  cases found : MessageKind.ofTag? tag with
  | none =>
      rw [decode_of_lookup?_none (Registry.lookup?_eq_none_iff.2 found)] at run
      cases run
  | some kind =>
      obtain rfl := MessageKind.tag_of_ofTag? found
      rcases FieldCursor.spelled_or_error kind.fields body with ⟨words, extra, spelled, rfl⟩ |
        ⟨prior, field, later, words, rest, reason, left, fields, spelled, rfl, failed⟩
      · obtain ⟨contents, denoted⟩ := Values.exists_denotes_iff.2 spelled
        rw [decode_of_denotes denoted] at run
        cases run
      · rw [decode_of_error fields spelled failed] at run
        cases run
        exact ⟨kind, field, _, reason, fields ▸ by simp, rfl⟩

/-- **The text of a body that cannot be read stands on one line**: `OneLine cause.message`. -/
theorem Message.oneLine_of_decode_error {tag : UInt16} {body : Bytes} {cause : DecodeError}
    (run : decode tag body = .error cause) : OneLine cause.message := by
  obtain ⟨kind, field, position, reason, declared, rfl⟩ := field_of_decode_error run
  obtain ⟨name, names⟩ := kind.oneLine_names
  exact DecodeError.oneLine_message_field position reason name (names field declared)

end PeerWire
