import PeerWire.Message.Registry
import PeerWire.Proofs.MessageDecoding
import PeerWire.Proofs.Receiving

/-! # Tags and their names

Bodies are decoded by the kind that their tag names, names are looked up by halving a table. As the
tags of the table ascend, a lookup finds what is in it, and nothing else
(`Registry.search_eq_some_iff`). So both know the same tags by the same names: what a body decodes
to, or why it does not, can be told from the name of its tag (`Message.decode_by_name`). -/

namespace PeerWire

namespace Registry

variable {entries : Array (UInt16 × String)} {tag : UInt16} {name : String}

/-! ## Searching a table -/

/-- The tags of a table ascend: `entry.1 < later.1` for every later entry. -/
def Ascending (entries : Array (UInt16 × String)) : Prop :=
  entries.toList.Pairwise fun entry later => entry.1 < later.1

/-- In a table of ascending tags the places are in the order of their tags. -/
theorem Ascending.lt_iff (ascending : Ascending entries) {place other : Nat}
    {entry entry' : UInt16 × String} (here : entries[place]? = some entry)
    (there : entries[other]? = some entry') : entry.1 < entry'.1 ↔ place < other := by
  have forward {place other : Nat} {entry entry' : UInt16 × String}
      (here : entries[place]? = some entry) (there : entries[other]? = some entry')
      (before : place < other) : entry.1 < entry'.1 := by
    obtain ⟨inside, rfl⟩ := Array.getElem?_eq_some_iff.1 here
    obtain ⟨inside', rfl⟩ := Array.getElem?_eq_some_iff.1 there
    exact List.pairwise_iff_getElem.1 ascending place other inside inside' before
  refine ⟨fun less => ?_, forward here there⟩
  rcases Nat.lt_trichotomy place other with before | rfl | after
  · exact before
  · rw [here] at there
    cases there
    exact absurd less (UInt16.lt_irrefl _)
  · exact absurd less (UInt16.lt_asymm (forward there here after))

/-- In a table of ascending tags no tag is at two places: `place = other`. -/
theorem Ascending.unique (ascending : Ascending entries) {place other : Nat}
    {entry entry' : UInt16 × String} (here : entries[place]? = some entry)
    (there : entries[other]? = some entry') (same : entry.1 = entry'.1) : place = other := by
  have first := mt (ascending.lt_iff here there).2
  have second := mt (ascending.lt_iff there here).2
  rw [same] at first second
  exact Nat.le_antisymm (Nat.le_of_not_lt (second (UInt16.lt_irrefl _)))
    (Nat.le_of_not_lt (first (UInt16.lt_irrefl _)))

/-- **A search finds what is between its places**, from `low` up to `high`, and nothing else. -/
theorem search_eq_some_iff (ascending : Ascending entries) {low high : Nat}
    (inside : high ≤ entries.size) :
    search entries tag low high = some name ↔
      ∃ place, low ≤ place ∧ place < high ∧ entries[place]? = some (tag, name) := by
  fun_induction search entries tag low high with
  | case1 low high less middle past =>
      -- There is an entry at the middle of places that are all inside.
      have bound : middle < high := by omega
      rw [Array.getElem?_eq_none_iff] at past
      omega
  | case2 low high less middle found here =>
      constructor
      · intro same
        cases same
        exact ⟨middle, by omega, by omega, here⟩
      · rintro ⟨place, -, -, there⟩
        have same : middle = place := ascending.unique here there rfl
        rw [← same, here] at there
        cases there
        rfl
  | case3 low high less middle other found here differs below ih =>
      -- Everything from the middle on has too great a tag.
      rw [ih (by omega)]
      constructor
      · rintro ⟨place, above, under, there⟩
        exact ⟨place, above, by omega, there⟩
      · rintro ⟨place, above, -, there⟩
        exact ⟨place, above, (ascending.lt_iff there here).1 below, there⟩
  | case4 low high less middle other found here differs notBelow ih =>
      -- Everything up to the middle has too small a tag.
      rw [ih inside]
      constructor
      · rintro ⟨place, above, under, there⟩
        exact ⟨place, by omega, under, there⟩
      · rintro ⟨place, -, under, there⟩
        have greater : other < tag := by
          rcases UInt16.lt_or_lt_of_ne differs with smaller | greater
          · exact absurd smaller notBelow
          · exact greater
        exact ⟨place, (ascending.lt_iff here there).1 greater, under, there⟩
  | case5 low high nothing =>
      simp only [reduceCtorEq, false_iff]
      rintro ⟨place, above, under, -⟩
      omega

/-! ## The table of the catalogue -/

/-- The tags of the catalogue ascend as they are declared. -/
theorem ascending_table : Ascending table := by
  unfold Ascending
  decide

/-- **A tag has the name of its kind**, `(MessageKind.ofTag? tag).map MessageKind.name`, and none if
there is no such kind. -/
theorem lookup?_eq (tag : UInt16) :
    lookup? tag = (MessageKind.ofTag? tag).map MessageKind.name := by
  apply Option.ext
  intro name
  rw [lookup?, search_eq_some_iff ascending_table (Nat.le_refl _), Option.map_eq_some_iff]
  constructor
  · rintro ⟨place, -, -, there⟩
    have listed : (tag, name) ∈ table := Array.mem_of_getElem? there
    obtain ⟨kind, -, same⟩ := List.mem_map.1 (List.mem_toArray.1 listed)
    cases same
    exact ⟨kind, kind.ofTag?_tag, rfl⟩
  · rintro ⟨kind, found, rfl⟩
    -- The table lists every kind that a tag can be the tag of.
    obtain rfl := MessageKind.tag_of_ofTag? found
    have declared : kind ∈ MessageKind.all := List.mem_of_find?_eq_some found
    have listed : (kind.tag, kind.name) ∈ table :=
      List.mem_toArray.2 (List.mem_map.2 ⟨kind, declared, rfl⟩)
    obtain ⟨place, inside, there⟩ := Array.mem_iff_getElem.1 listed
    exact ⟨place, Nat.zero_le _, inside, Array.getElem?_eq_some_iff.2 ⟨inside, there⟩⟩

/-- A tag without a name is that of no kind. -/
theorem lookup?_eq_none_iff : lookup? tag = none ↔ MessageKind.ofTag? tag = none := by
  rw [lookup?_eq, Option.map_eq_none_iff]

/-- A name is that of the kind with the tag: `kind.tag = tag` and `kind.name = name`. -/
theorem lookup?_eq_some_iff :
    lookup? tag = some name ↔ ∃ kind : MessageKind, kind.tag = tag ∧ kind.name = name := by
  rw [lookup?_eq, Option.map_eq_some_iff]
  constructor
  · rintro ⟨kind, found, same⟩
    exact ⟨kind, MessageKind.tag_of_ofTag? found, same⟩
  · rintro ⟨kind, rfl, same⟩
    exact ⟨kind, kind.ofTag?_tag, same⟩

end Registry

/-! ## Decoding -/

namespace Message

/-- A body with a tag that has no name is kept as it is: `.unknown tag body`. -/
theorem decode_of_lookup?_none {tag : UInt16} (nameless : Registry.lookup? tag = none)
    (body : Bytes) : decode tag body = .ok (.unknown tag body) :=
  decode_eq_ok_iff.2 (.inl ⟨Registry.lookup?_eq_none_iff.1 nameless, rfl⟩)

/-- A body with a tag that has a name is decoded to a message with `message.name = name`, or fails
under it. -/
theorem decode_of_lookup?_some {tag : UInt16} {name : String}
    (named : Registry.lookup? tag = some name) (body : Bytes) :
    (∃ message, decode tag body = .ok message ∧
      message.isUnknown = false ∧ message.tag = tag ∧ message.name = name) ∨
    ∃ field position cause, decode tag body = .error (.field name field position cause) := by
  obtain ⟨kind, rfl, rfl⟩ := Registry.lookup?_eq_some_iff.1 named
  rcases FieldCursor.spelled_or_error kind.fields body with ⟨words, extra, spelled, rfl⟩ |
    ⟨prior, field, later, words, rest, cause, left, fields, spelled, rfl, failed⟩
  · obtain ⟨contents, denoted⟩ := Values.exists_denotes_iff.2 spelled
    exact .inl ⟨_, decode_of_denotes denoted extra, rfl, rfl, rfl⟩
  · exact .inr ⟨field.name, prior.length, cause, decode_of_error fields spelled failed⟩

/-- Only bodies whose tag has a name fail, and they fail under that name. -/
theorem name_of_decode_error {tag : UInt16} {body : Bytes} {cause : DecodeError}
    (run : decode tag body = .error cause) :
    ∃ name field position reason,
      Registry.lookup? tag = some name ∧ cause = .field name field position reason := by
  cases found : Registry.lookup? tag with
  | none =>
      rw [decode_of_lookup?_none found] at run
      cases run
  | some name =>
      rcases decode_of_lookup?_some found body with ⟨message, decoded, -⟩ |
        ⟨field, position, reason, failed⟩
      · rw [decoded] at run
        cases run
      · rw [failed] at run
        cases run
        exact ⟨name, field, position, reason, rfl, rfl⟩

end Message

/-- A body that an inlet reports is that of a frame, and does not decode. -/
theorem MessageInlet.decode_of_receive {inlet next : MessageInlet} {tag : UInt16}
    {cause : DecodeError} (run : inlet.receive = (.error (.decode tag cause), next)) :
    ∃ body, Message.decode tag body = .error cause := by
  unfold receive at run
  split at run
  · cases run
  · rename_i frame frames received
    split at run
    · cases run
    · rename_i failed
      cases run
      exact ⟨frame.body, failed⟩

namespace Message

/-- **Bodies are decoded under the name of their tag.** If `Registry.lookup? tag = none`, a body is
kept as it is and written back after the tag. If there is a name, a body is decoded to a message
with this tag and this name, or the error says under this name which field could not be read.
Whatever an inlet reads from, the bodies that it reports as malformed have a tag with a name, and
fail under it. -/
theorem decode_by_name :
    (∀ tag body, Registry.lookup? tag = none →
      decode tag body = .ok (.unknown tag body) ∧
      (unknown tag body).toBytes = bigEndian 2 tag.toNat ++ body) ∧
    (∀ tag body name, Registry.lookup? tag = some name →
      (∃ message, decode tag body = .ok message ∧
        message.isUnknown = false ∧ message.tag = tag ∧ message.name = name) ∨
      ∃ field position cause, decode tag body = .error (.field name field position cause)) ∧
    ∀ (inlet next : MessageInlet) (tag : UInt16) (cause : DecodeError),
      inlet.receive = (.error (.decode tag cause), next) →
        Registry.isKnown tag = true ∧
        ∃ name field position reason,
          Registry.lookup? tag = some name ∧ cause = .field name field position reason := by
  refine ⟨?_, ?_, ?_⟩
  · intro tag body nameless
    exact ⟨decode_of_lookup?_none nameless body, rfl⟩
  · intro tag body name named
    exact decode_of_lookup?_some named body
  · intro inlet next tag cause run
    obtain ⟨body, failed⟩ := MessageInlet.decode_of_receive run
    obtain ⟨name, field, position, reason, named, same⟩ := name_of_decode_error failed
    refine ⟨?_, name, field, position, reason, named, same⟩
    rw [Registry.isKnown, named]
    rfl

/-- A tag between two of the catalogue has no name, a ping has. A ping that is cut short is reported
under the name that the registry has for its tag. -/
theorem decode_by_name_ping :
    let inlet : MessageInlet := .ofSource (.ofBytes [0, 3, 0, 18, 7]) 65535 none
    let cause : DecodeError := .field "ping" "num_pong_bytes" 0 (.truncated 2 1)
    (Registry.lookup? 37 = none ∧ decode 37 [1] = .ok (.unknown 37 [1])) ∧
    (Registry.lookup? 18 = some "ping" ∧
      ∃ message, decode 18 [0, 0, 0, 0] = .ok message ∧ message.name = "ping") ∧
    ∃ next, inlet.receive = (.error (.decode 18 cause), next) ∧ Registry.isKnown 18 = true := by
  intro inlet cause
  obtain ⟨nameless, named, reported⟩ := decode_by_name
  have none : Registry.lookup? 37 = none := (Registry.lookup?_eq 37).trans rfl
  have ping : Registry.lookup? 18 = some "ping" := (Registry.lookup?_eq 18).trans rfl
  refine ⟨⟨none, (nameless 37 [1] none).1⟩, ⟨ping, ?_⟩, ?_⟩
  · rcases named 18 [0, 0, 0, 0] "ping" ping with ⟨message, run, -, -, same⟩ |
      ⟨field, position, cause, run⟩
    · exact ⟨message, run, same⟩
    · cases run
  · have holds : inlet.Holds ((⟨18, [7]⟩ : Frame).toBytes ++ []) :=
      ⟨rfl, Source.flowing_ofBytes (by decide)⟩
    have fits : (⟨18, [7]⟩ : Frame).Fits inlet.frames.limit := ⟨by decide, by decide⟩
    obtain ⟨next, run, -⟩ := MessageInlet.receive_of_frame holds fits
    exact ⟨next, run, (reported inlet next 18 cause run).1⟩

end Message

end PeerWire
