import PeerWire.Message.Ping
import PeerWire.Proofs.Filling
import PeerWire.Proofs.RoundTrip
import PeerWire.Proofs.WireForms

/-! # The limits of pings

The most bytes that a pong can carry and the most padding that a ping can carry are written down as
numbers. They are what a frame leaves: a message can be framed exactly if its body has at most 65533
bytes (`Message.framable_iff`), of which a pong needs two for a length and a ping four for a number
and a length. So a ping is made exactly if it and its answer can be framed, and a ping that comes
from a peer is answered exactly if the answer can be framed
(`Message.ping_limits_are_frame_limits`). -/

namespace PeerWire

/-! ## Making and answering pings -/

/-- What making a ping comes to: the ping, or the first of the two limits that is exceeded. -/
theorem Contents.ping_cases (requested padding : UInt16) :
    (requested.toNat ≤ pongCapacity ∧ padding.toNat ≤ paddingCapacity ∧
      ping requested padding = .ok (requested, List.replicate padding.toNat 0, ())) ∨
    (pongCapacity < requested.toNat ∧
      ping requested padding = .error (.invalid (.pongTooLong requested.toNat pongCapacity))) ∨
    (requested.toNat ≤ pongCapacity ∧ paddingCapacity < padding.toNat ∧
      ping requested padding =
        .error (.invalid (.paddingTooLong padding.toNat paddingCapacity))) := by
  unfold ping
  by_cases long : requested.toNat > pongCapacity
  · exact .inr (.inl ⟨long, if_pos long⟩)
  · rw [if_neg long]
    by_cases wide : padding.toNat > paddingCapacity
    · exact .inr (.inr ⟨Nat.le_of_not_lt long, wide, if_pos wide⟩)
    · exact .inl ⟨Nat.le_of_not_lt long, Nat.le_of_not_lt wide, if_neg wide⟩

/-- A ping is made within both limits, and is then `List.replicate padding.toNat 0` behind the
number asked for. -/
theorem Contents.ping_eq_ok_iff {requested padding : UInt16} {contents : Contents .ping} :
    ping requested padding = .ok contents ↔
      requested.toNat ≤ pongCapacity ∧ padding.toNat ≤ paddingCapacity ∧
        contents = (requested, List.replicate padding.toNat 0, ()) := by
  rcases ping_cases requested padding with
    ⟨asked, carried, made⟩ | ⟨long, refused⟩ | ⟨-, wide, refused⟩
  · rw [made, Except.ok.injEq]
    exact ⟨fun same => ⟨asked, carried, same.symm⟩, fun same => same.2.2.symm⟩
  · rw [refused]
    simp [Nat.not_le_of_lt long]
  · rw [refused]
    simp [Nat.not_le_of_lt wide]

/-- A ping is answered if it wants an answer, with as many zeros as it asks for: `List.replicate
ping.1.toNat 0`. -/
theorem Contents.pong?_eq_some_iff {ping : Contents .ping} {pong : Contents .pong} :
    pong? ping = some pong ↔
      ping.1.toNat ≤ pongCapacity ∧ pong = (List.replicate ping.1.toNat 0, ()) := by
  obtain ⟨requested, padding, ⟨⟩⟩ := ping
  show (if requested.toNat ≤ pongCapacity then some (List.replicate requested.toNat 0, ())
    else none) = some pong ↔ requested.toNat ≤ pongCapacity ∧ _
  by_cases short : requested.toNat ≤ pongCapacity
  · rw [if_pos short, Option.some.injEq]
    exact ⟨fun same => ⟨short, same.symm⟩, fun same => same.2.symm⟩
  · rw [if_neg short]
    simp [short]

/-- It wants one if it asks for no more than a pong can carry: `ping.1.toNat ≤ pongCapacity`. -/
theorem Contents.wantsPong_iff {ping : Contents .ping} :
    wantsPong ping = true ↔ ping.1.toNat ≤ pongCapacity := by
  obtain ⟨requested, padding, ⟨⟩⟩ := ping
  exact decide_eq_true_iff

namespace Message

/-! ## Room in a frame -/

/-- A message whose frame has a wire form. -/
def Framable (message : Message) : Prop := ∃ wire, message.encodeFrame = .ok wire

/-- **A message can be framed** if two bytes can say the length of its tag and its body:
`message.bodyLength ≤ 65533`. -/
theorem framable_iff {message : Message} : message.Framable ↔ message.bodyLength ≤ 65533 := by
  have room : message.toFrame.declaredLength ≤ Frame.maxSize ↔ message.body.length ≤ 65533 :=
    Frame.declaredLength_le_maxSize_iff
  rw [← length_body, ← room]
  constructor
  · rintro ⟨wire, framed⟩
    exact (Frame.encode_eq_ok_iff.1 framed).1
  · intro small
    exact ⟨_, Frame.encode_eq_ok_iff.2 ⟨small, rfl⟩⟩

/-- There is no other reason not to frame a message than that it is too large, `oversize`. -/
theorem framable_iff_ne_oversize {message : Message} :
    message.Framable ↔ ∀ size most, message.encodeFrame ≠ .error (.oversize size most) := by
  constructor
  · rintro ⟨wire, framed⟩ size most refused
    rw [refused] at framed
    cases framed
  · intro accepted
    by_cases wide : message.toFrame.declaredLength > Frame.maxSize
    · exact absurd (if_pos wide) (accepted _ _)
    · exact ⟨_, if_neg wide⟩

/-- A message that can be framed fits where lengths are only limited by what two bytes can say. -/
theorem Framable.fits {message : Message} {limit : Nat} (framable : message.Framable)
    (most : Frame.maxSize ≤ limit) : message.toFrame.Fits limit := by
  obtain ⟨wire, framed⟩ := framable
  obtain ⟨small, -⟩ := Frame.encode_eq_ok_iff.1 framed
  exact ⟨small, Nat.le_trans small most⟩

/-- A ping without further bytes can be framed with `padding.length ≤ paddingCapacity`. -/
theorem framable_ping_iff {requested : UInt16} {padding : Bytes} :
    (known .ping (requested, padding, ()) []).Framable ↔ padding.length ≤ paddingCapacity := by
  have length : (known .ping (requested, padding, ()) []).bodyLength =
      2 + (2 + padding.length + 0) + 0 := rfl
  rw [framable_iff, length, paddingCapacity]
  omega

/-- A pong without further bytes can be framed with `answer.length ≤ pongCapacity`. -/
theorem framable_pong_iff {answer : Bytes} :
    (known .pong (answer, ()) []).Framable ↔ answer.length ≤ pongCapacity := by
  have length : (known .pong (answer, ()) []).bodyLength = 2 + answer.length + 0 + 0 := rfl
  rw [framable_iff, length, pongCapacity]
  omega

/-! ## The limits -/

/-- **The limits of pings are those of frames.** A message that cannot be framed is refused by
`oversize`. A ping is made exactly if both a ping with as much padding and a pong with as many bytes
as it asks for are `Framable`, whatever these bytes are. It is then the number and zeros as padding,
it can be framed, and it is answered with `List.replicate requested.toNat 0`, which can be framed as
well. Any ping, made here or come from a peer, with whatever padding and further bytes, wants an
answer, and gets one, exactly if a pong with as many bytes as it asks for can be framed. So no
answer is refused as too large by an outlet with the limit that two bytes impose anyway, or a higher
one, whatever its sink does. -/
theorem ping_limits_are_frame_limits :
    (∀ message : Message, message.Framable ↔
      ∀ size most, message.encodeFrame ≠ .error (.oversize size most)) ∧
    (∀ requested padding : UInt16,
      (∀ filling answer : Bytes, filling.length = padding.toNat →
        answer.length = requested.toNat →
        ((∃ ping, Contents.ping requested padding = .ok ping) ↔
          (known .ping (requested, filling, ()) []).Framable ∧
            (known .pong (answer, ()) []).Framable)) ∧
      ∀ ping, Contents.ping requested padding = .ok ping →
        ping = (requested, List.replicate padding.toNat 0, ()) ∧
        (known .ping ping []).Framable ∧
        Contents.pong? ping = some (List.replicate requested.toNat 0, ()) ∧
        (known .pong (List.replicate requested.toNat 0, ()) []).Framable) ∧
    ∀ ping : Contents .ping,
      (∀ answer : Bytes, answer.length = ping.1.toNat →
        ((∃ pong, Contents.pong? ping = some pong) ↔ (known .pong (answer, ()) []).Framable) ∧
        (Contents.wantsPong ping = true ↔ (known .pong (answer, ()) []).Framable)) ∧
      ∀ pong, Contents.pong? ping = some pong →
        pong = (List.replicate ping.1.toNat 0, ()) ∧
        ∀ outlet : MessageOutlet, Frame.maxSize ≤ outlet.frames.limit → ∀ size most,
          (outlet.send (known .pong pong [])).1 ≠ .error (.frame (.oversize size most)) := by
  refine ⟨fun _ => framable_iff_ne_oversize, fun requested padding => ⟨?_, ?_⟩,
    fun ping => ⟨?_, ?_⟩⟩
  · intro filling answer filled answered
    rw [framable_ping_iff, framable_pong_iff, filled, answered]
    constructor
    · rintro ⟨ping, made⟩
      obtain ⟨asked, carried, -⟩ := Contents.ping_eq_ok_iff.1 made
      exact ⟨carried, asked⟩
    · rintro ⟨carried, asked⟩
      exact ⟨_, Contents.ping_eq_ok_iff.2 ⟨asked, carried, rfl⟩⟩
  · intro ping made
    obtain ⟨asked, carried, rfl⟩ := Contents.ping_eq_ok_iff.1 made
    refine ⟨rfl, framable_ping_iff.2 ?_, Contents.pong?_eq_some_iff.2 ⟨asked, rfl⟩,
      framable_pong_iff.2 ?_⟩
    · rwa [List.length_replicate]
    · rwa [List.length_replicate]
  · intro answer answered
    rw [framable_pong_iff, answered]
    refine ⟨?_, Contents.wantsPong_iff⟩
    constructor
    · rintro ⟨pong, given⟩
      exact (Contents.pong?_eq_some_iff.1 given).1
    · intro asked
      exact ⟨_, Contents.pong?_eq_some_iff.2 ⟨asked, rfl⟩⟩
  · intro pong answered
    obtain ⟨asked, rfl⟩ := Contents.pong?_eq_some_iff.1 answered
    refine ⟨rfl, fun outlet most => send_ne_oversize (Framable.fits ?_ most)⟩
    rwa [framable_pong_iff, List.length_replicate]

/-- The greatest ping can be framed and answered. -/
example : ∃ ping, Contents.ping 65531 65529 = .ok ping :=
  ⟨_, Contents.ping_eq_ok_iff.2 ⟨by decide, by decide, rfl⟩⟩

end Message

end PeerWire
