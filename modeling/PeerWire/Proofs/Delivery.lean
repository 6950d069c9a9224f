import PeerWire.Proofs.Receiving
import PeerWire.Proofs.RoundTrip

/-! # Messages from end to end

Messages are sent in order over a willing sink, and its bytes are read from a flowing source. The
reader gets the messages whose sending succeeded, in their order, and then the end of the stream
(`receive_sent`). A message that could not be read back never gets that far: a length or count that
does not fit its prefix stands in front of more bytes than a frame can have. -/

namespace PeerWire

/-! ## Messages that fit into frames -/

/-- The parts of some fields are no longer than the whole: with `encodedLength fields values ≤
65535` they are in range. -/
theorem Values.inRange_of_encodedLength_le {fields : List Field} {values : Values fields}
    (short : encodedLength fields values ≤ 65535)
    (inflatable : All FieldType.Inflatable fields values) :
    All FieldType.InRange fields values := by
  induction fields with
  | nil => trivial
  | cons field fields ih =>
      rw [encodedLength] at short
      exact ⟨FieldType.inRange_of_encodedLength_le (by omega) inflatable.1,
        ih (by omega) inflatable.2⟩

namespace Message

/-- Compressed lists keep their limit, and an unknown tag is not in the catalogue:
`MessageKind.ofTag? tag = none`. -/
def Proper : Message → Prop
  | .known kind contents _ => Values.All FieldType.Inflatable kind.fields contents
  | .unknown tag _ => MessageKind.ofTag? tag = none

/-- **A proper message that fits into a frame is in range**: `message.InRange`. -/
theorem inRange_of_fits {message : Message} {limit : Nat} (proper : message.Proper)
    (fits : message.toFrame.Fits limit) : message.InRange := by
  cases message with
  | unknown tag body => exact proper
  | known kind contents extra =>
      have short : 2 + (Values.encode kind.fields contents ++ extra).length ≤ 65535 := fits.1
      rw [List.length_append, Values.length_encode] at short
      exact Values.inRange_of_encodedLength_le (by omega) proper

end Message

/-! ## Sending -/

namespace MessageOutlet

/-- Writes messages in order, also after one that was refused, and says what became of each. -/
def sendEach (outlet : MessageOutlet) :
    List Message → List (Message × Except LinkError Unit) × MessageOutlet
  | [] => ([], outlet)
  | message :: messages =>
      match outlet.send message with
      | (outcome, outlet) =>
          match sendEach outlet messages with
          | (log, outlet) => ((message, outcome) :: log, outlet)

/-- The messages of a log whose sending succeeded, with the outcome `.ok ()`. -/
def delivered (log : List (Message × Except LinkError Unit)) : List Message :=
  (log.filter fun entry => entry.2 = .ok ()).map Prod.fst

/-- A message whose frame fits is written whole, as `message.toFrame.toBytes`. -/
theorem send_of_willing {outlet : MessageOutlet} {message : Message}
    (willing : outlet.frames.sink.Willing) (fits : message.toFrame.Fits outlet.frames.limit) :
    ∃ next, outlet.send message = (.ok (), next) ∧ next.frames.limit = outlet.frames.limit ∧
      next.frames.sink.written = outlet.frames.sink.written ++ message.toFrame.toBytes ∧
        next.frames.sink.Willing := by
  obtain ⟨frames, sent, kept⟩ := FrameOutlet.send_of_willing willing fits
  refine ⟨{ outlet with frames }, ?_, kept⟩
  rw [send, sent]
  rfl

/-- A message whose frame does not fit is refused by `oversize`, and nothing is written. -/
theorem send_of_not_fits {outlet : MessageOutlet} {message : Message}
    (large : ¬message.toFrame.Fits outlet.frames.limit) :
    ∃ size most next, outlet.send message = (.error (.frame (.oversize size most)), next) ∧
      next.frames.limit = outlet.frames.limit ∧ next.frames.sink = outlet.frames.sink := by
  obtain ⟨size, most, assembly, refused⟩ := FrameOutlet.send_of_not_fits large
  refine ⟨size, most, ⟨{ outlet.frames with assembly }⟩, ?_, rfl, rfl⟩
  rw [send, refused]
  rfl

/-- Sending several messages is sending the first and then the others. -/
theorem sendEach_cons {outlet middle next : MessageOutlet} {message : Message}
    {messages : List Message} {outcome : Except LinkError Unit}
    {log : List (Message × Except LinkError Unit)} (first : outlet.send message = (outcome, middle))
    (later : middle.sendEach messages = (log, next)) :
    outlet.sendEach (message :: messages) = ((message, outcome) :: log, next) := by
  rw [sendEach, first]
  simp only [later]

/-- **What is written is the frames of the messages that fit**, those of `delivered log` in order;
the others are refused. -/
theorem sendEach_of_willing {outlet : MessageOutlet} (willing : outlet.frames.sink.Willing)
    (messages : List Message) :
    ∃ log next, outlet.sendEach messages = (log, next) ∧ log.map Prod.fst = messages ∧
      next.frames.sink.written = outlet.frames.sink.written ++
        (delivered log).flatMap (fun message => message.toFrame.toBytes) ∧
      ∀ entry ∈ log,
        (entry.1.toFrame.Fits outlet.frames.limit → entry.2 = .ok ()) ∧
        (¬entry.1.toFrame.Fits outlet.frames.limit →
          ∃ size most, entry.2 = .error (.frame (.oversize size most))) := by
  -- The sink stays willing and the limit stays, whatever becomes of a message.
  induction messages generalizing outlet with
  | nil => exact ⟨[], outlet, rfl, rfl, (List.append_nil _).symm, by simp⟩
  | cons message messages ih =>
      by_cases fits : message.toFrame.Fits outlet.frames.limit
      · obtain ⟨middle, sent, limit, written, stays⟩ := send_of_willing willing fits
        obtain ⟨log, next, run, order, rest, outcomes⟩ := ih stays
        rw [limit] at outcomes
        refine ⟨_, next, sendEach_cons sent run, by simp [order], ?_, ?_⟩
        · rw [rest, written, List.append_assoc]
          simp [delivered]
        · rintro entry (_ | ⟨_, member⟩)
          · exact ⟨fun _ => rfl, fun large => absurd fits large⟩
          · exact outcomes entry member
      · obtain ⟨size, most, middle, refused, limit, same⟩ := send_of_not_fits fits
        obtain ⟨log, next, run, order, rest, outcomes⟩ := ih (by rw [same]; exact willing)
        rw [limit] at outcomes
        refine ⟨_, next, sendEach_cons refused run, by simp [order], ?_, ?_⟩
        · rw [rest, same]
          simp [delivered]
        · rintro entry (_ | ⟨_, member⟩)
          · exact ⟨fun keeps => absurd keeps fits, fun _ => ⟨size, most, rfl⟩⟩
          · exact outcomes entry member

end MessageOutlet

/-! ## Receiving -/

namespace MessageInlet

/-- **Messages that are read back are received in order**, `messages.map .ok`, and then the end of
the stream. -/
theorem receiveMany_of_messages {inlet : MessageInlet} {messages : List Message}
    (holds : inlet.Holds (messages.flatMap fun message => message.toFrame.toBytes))
    (each : ∀ message ∈ messages, message.toFrame.Fits inlet.frames.limit ∧
      Message.decode message.tag message.body = .ok message) (more : Nat) :
    ∃ next, inlet.receiveMany (messages.length + more) =
        (messages.map .ok ++ List.replicate more (.error (.frame .closed)), next) ∧
      next.tally = messages.foldl Tally.countMessage inlet.tally := by
  have decodes {message : Message} (member : message ∈ messages) :
      Message.decode message.toFrame.tag message.toFrame.body = .ok message :=
    (each message member).2
  have outcomes : messages.map (Frame.outcome ∘ Message.toFrame) = messages.map .ok :=
    List.map_congr_left fun message member => by
      rw [Function.comp_apply, Frame.outcome, decodes member]
  have counts (tally : Tally) :
      messages.foldl (fun tally message => tally.countFrame message.toFrame) tally =
        messages.foldl Tally.countMessage tally :=
    List.foldl_ext _ _ _ fun tally message member => by
      rw [Tally.countFrame, decodes member]
  have fits : ∀ frame ∈ messages.map Message.toFrame, frame.Fits inlet.frames.limit :=
    List.forall_mem_map.2 fun message member => (each message member).1
  rw [← List.flatMap_map] at holds
  obtain ⟨next, run, tally⟩ := receiveMany_of_frames holds fits more
  rw [List.length_map, List.map_map, outcomes] at run
  rw [List.foldl_map, counts] at tally
  exact ⟨next, run, tally⟩

end MessageInlet

/-- Counting messages counts the known and the unknown ones, and adds `messages.length` frames. -/
theorem Tally.foldl_countMessage (messages : List Message) (tally : Tally) :
    messages.foldl countMessage tally =
      { tally with
        frames := tally.frames + messages.length
        decoded := tally.decoded + messages.countP fun message => !message.isUnknown
        unknown := tally.unknown + messages.countP Message.isUnknown } := by
  induction messages generalizing tally with
  | nil => rfl
  | cons message messages ih =>
      rw [List.foldl_cons, ih, countMessage]
      cases kind : message.isUnknown
      · simp [kind]
        omega
      · simp [kind]
        omega

/-! ## From end to end -/

open MessageOutlet in
/-- The messages delivered are those with an entry `(message, .ok ())`. -/
theorem MessageOutlet.mem_delivered_iff {log : List (Message × Except LinkError Unit)}
    {message : Message} : message ∈ delivered log ↔ (message, .ok ()) ∈ log := by
  simp [delivered]

open MessageOutlet in
/-- **What was sent is received.** Messages are sent in order over a willing sink; the bytes it took
are cut into reads in any way. The reader gets exactly `delivered log`, the messages whose sending
succeeded, in order, and then finds the stream `closed`, however often it asks. Sending succeeds
exactly for the messages that fit into a frame of the writer; one out of range never does. -/
theorem receive_sent {compress : Bytes → Bytes} (faithful : Zlib.Faithful compress)
    {messages : List Message} (built : ∀ message ∈ messages, message.Built compress)
    (proper : ∀ message ∈ messages, message.Proper) {outlet outlet' : MessageOutlet}
    {log : List (Message × Except LinkError Unit)} (willing : outlet.frames.sink.Willing)
    (fresh : outlet.frames.sink.written = []) (sent : outlet.sendEach messages = (log, outlet'))
    {source : Source} (flowing : source.Flowing)
    (cut : source.pending = outlet'.frames.sink.written) {limit : Nat}
    (higher : outlet.frames.limit ≤ limit) (skipLimit : Option Nat) :
    log.map Prod.fst = messages ∧
    (∀ more, ∃ inlet,
      (MessageInlet.ofSource source limit skipLimit).receiveMany ((delivered log).length + more) =
        ((delivered log).map .ok ++ List.replicate more (.error (.frame .closed)), inlet) ∧
      inlet.tally.frames = (delivered log).length ∧
      inlet.tally.unknown = (delivered log).countP Message.isUnknown ∧
      inlet.tally.decoded = (delivered log).countP (fun message => !message.isUnknown) ∧
      inlet.tally.malformed = 0) ∧
    ∀ entry ∈ log,
      (entry.1.toFrame.Fits outlet.frames.limit → entry.2 = .ok ()) ∧
      (¬entry.1.toFrame.Fits outlet.frames.limit →
        ∃ size most, entry.2 = .error (.frame (.oversize size most))) ∧
      (¬entry.1.InRange → ∃ size most, entry.2 = .error (.frame (.oversize size most))) := by
  obtain ⟨log', next, run, order, written, outcomes⟩ := sendEach_of_willing willing messages
  rw [sent] at run
  obtain ⟨rfl, rfl⟩ := Prod.mk.inj run
  rw [fresh, List.nil_append] at written
  have among {entry : Message × Except LinkError Unit} (member : entry ∈ log) :
      entry.1 ∈ messages := by
    rw [← order]
    exact List.mem_map_of_mem member
  refine ⟨order, ?_, ?_⟩
  · intro more
    have holds : (MessageInlet.ofSource source limit skipLimit).Holds
        ((delivered log).flatMap fun message => message.toFrame.toBytes) :=
      ⟨cut.trans written, flowing⟩
    have each : ∀ message ∈ delivered log, message.toFrame.Fits limit ∧
        Message.decode message.tag message.body = .ok message := by
      intro message member
      have entry := mem_delivered_iff.1 member
      -- A message that got through fits into a frame, hence it is in range and is read back.
      have fits : message.toFrame.Fits outlet.frames.limit := by
        by_contra large
        obtain ⟨size, most, refused⟩ := (outcomes _ entry).2 large
        cases refused
      have range := Message.inRange_of_fits (proper message (among entry)) fits
      exact ⟨fits.mono higher, Message.decode_body faithful (built message (among entry)) range⟩
    obtain ⟨inlet, received, tally⟩ := MessageInlet.receiveMany_of_messages holds each more
    refine ⟨inlet, received, ?_⟩
    rw [tally, Tally.foldl_countMessage]
    simp [MessageInlet.ofSource]
  · intro entry member
    obtain ⟨accepted, refused⟩ := outcomes entry member
    refine ⟨accepted, refused, ?_⟩
    intro outside
    refine refused fun fits => outside ?_
    exact Message.inRange_of_fits (proper entry.1 (among member)) fits

open MessageOutlet in
/-- A ping and an unknown message get through a sink that takes little at a time and a source that
gives single bytes; the error between them has a byte more than its length can say. -/
theorem receive_sent_single_bytes :
    let data : Bytes := List.replicate 65536 0
    let ping : Message := .known .ping (5, [1, 2], ()) [9]
    let long : Message := .known .error (.zero, data, ()) []
    let foreign : Message := .unknown 1 [7]
    let outlet : MessageOutlet :=
      { frames :=
          { sink := { writes := [.accept 3, .fault .interrupted, .accept 1] }, limit := 40 } }
    let sent := outlet.sendEach [ping, long, foreign]
    let source : Source := ⟨.fault .interrupted ::
      sent.2.frames.sink.written.map fun byte => .data [byte], 0⟩
    ∃ inlet, (MessageInlet.ofSource source 100 none).receiveMany 3 =
        ([.ok ping, .ok foreign, .error (.frame .closed)], inlet) ∧
      inlet.tally.frames = 2 ∧ inlet.tally.unknown = 1 ∧ inlet.tally.malformed = 0 := by
  intro data ping long foreign outlet sent source
  have size : data.length = 65536 := List.length_replicate
  clear_value data
  have built : ∀ message ∈ [ping, long, foreign], message.Built Zlib.compress := by
    rintro message (_ | ⟨_, _ | ⟨_, _ | ⟨_, ⟨⟩⟩⟩⟩)
    · exact ⟨trivial, trivial, trivial⟩
    · exact ⟨trivial, trivial, trivial⟩
    · trivial
  have proper : ∀ message ∈ [ping, long, foreign], message.Proper := by
    rintro message (_ | ⟨_, _ | ⟨_, _ | ⟨_, ⟨⟩⟩⟩⟩)
    · exact ⟨trivial, trivial, trivial⟩
    · exact ⟨trivial, trivial, trivial⟩
    · show MessageKind.ofTag? 1 = none
      decide
  have willing : outlet.frames.sink.Willing := by
    refine ⟨?_, by simp [outlet]⟩
    rintro event (_ | ⟨_, _ | ⟨_, _ | ⟨_, ⟨⟩⟩⟩⟩)
    · exact .inl ⟨2, rfl⟩
    · exact .inr rfl
    · exact .inl ⟨0, rfl⟩
  have flowing (bytes : Bytes) :
      Source.Flowing ⟨.fault .interrupted :: bytes.map fun byte => .data [byte], 0⟩ := by
    rintro event (_ | ⟨_, member⟩)
    · exact .inr rfl
    · obtain ⟨byte, -, rfl⟩ := List.mem_map.1 member
      exact .inl ⟨byte, [], rfl⟩
  have cut (bytes : Bytes) :
      Source.pending ⟨.fault .interrupted :: bytes.map fun byte => .data [byte], 0⟩ = bytes := by
    simp [Source.pending, ReadEvent.bytes, List.flatMap_map]
  have run : outlet.sendEach [ping, long, foreign] = (sent.1, sent.2) := (Prod.eta sent).symm
  have higher : outlet.frames.limit ≤ 100 := by decide
  obtain ⟨order, received, outcomes⟩ := receive_sent Zlib.faithful_compress built proper willing rfl
    run (flowing _) (cut _) higher none
  have short :
      ping.toFrame.Fits outlet.frames.limit ∧ foreign.toFrame.Fits outlet.frames.limit := by
    have nine : ping.toFrame.declaredLength = 9 := rfl
    have three : foreign.toFrame.declaredLength = 3 := rfl
    simp [Frame.Fits, Frame.maxSize, nine, three, outlet]
  have got : delivered sent.1 = [ping, foreign] := by
    generalize sent.1 = log at order outcomes
    obtain ⟨⟨_, first⟩, later, rfl, rfl, others⟩ := List.map_eq_cons_iff.1 order
    obtain ⟨⟨_, second⟩, last, rfl, rfl, other⟩ := List.map_eq_cons_iff.1 others
    obtain ⟨⟨_, third⟩, none, rfl, rfl, nothing⟩ := List.map_eq_cons_iff.1 other
    obtain rfl := List.map_eq_nil_iff.1 nothing
    have pinged : first = .ok () := (outcomes (ping, first) (by simp)).1 short.1
    have passed : third = .ok () := (outcomes (foreign, third) (by simp)).1 short.2
    have outside : ¬long.InRange := by
      intro range
      have small : data.length ≤ 65535 := range.2.1
      omega
    obtain ⟨most, limit, refused⟩ : ∃ most limit, second = .error (.frame (.oversize most limit)) :=
      (outcomes (long, second) (by simp)).2.2 outside
    rw [pinged, passed, refused]
    simp [delivered]
  obtain ⟨inlet, reads, frames, unknown, -, malformed⟩ := received 1
  rw [got] at reads frames unknown
  exact ⟨inlet, reads, frames, unknown, malformed⟩

end PeerWire
