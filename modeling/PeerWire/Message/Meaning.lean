import PeerWire.Message.Basic
import PeerWire.NodeAlias

/-! # What some messages say

Flags, ranges and texts that the fields of a message stand for. -/

namespace PeerWire.Contents

/-- An error that names no channel, with `channelId = .zero`, is about the whole connection. -/
def isConnectionWide : Contents .error → Bool
  | (channelId, _, ()) => channelId = .zero

/-- The text of an error. -/
def errorText : Contents .error → String
  | (_, data, ()) => Utf8.decodeLossy data

/-- Whether a new channel is to be announced: `flags &&& 1 = 1`. -/
def announcesChannel : Contents .openChannel → Bool
  | (_, _, _, _, _, _, _, _, _, _, _, _, _, _, _, _, _, flags, ()) => flags &&& 1 = 1

/-- The id that a channel gets from its funding. -/
def fundedChannelId : Contents .fundingCreated → ChannelId
  | (_, txid, index, _, ()) => ChannelId.ofOutpoint txid index

/-- Whether the failure is about the routing packet: `code &&& 0x8000 ≠ 0`. -/
def isBadOnion : Contents .updateFailMalformedHtlc → Bool
  | (_, _, _, code, ()) => code &&& 0x8000 ≠ 0

/-- The channel flags of an update. -/
def channelFlags : Contents .channelUpdate → UInt8
  | (_, _, _, _, _, flags, _, _, _, _, _, ()) => flags

/-- The message flags of an update. -/
def messageFlags : Contents .channelUpdate → UInt8
  | (_, _, _, _, flags, _, _, _, _, _, _, ()) => flags

/-- Which end of the channel an update is for: `channelFlags &&& 1`. -/
def direction (update : Contents .channelUpdate) : UInt8 := update.channelFlags &&& 1

/-- Whether an update takes the channel out of use: `channelFlags &&& 2 ≠ 0`. -/
def isDisabled (update : Contents .channelUpdate) : Bool := update.channelFlags &&& 2 ≠ 0

/-- Whether an update says how much the channel can carry: `messageFlags &&& 1 ≠ 0`. -/
def hasMaximum (update : Contents .channelUpdate) : Bool := update.messageFlags &&& 1 ≠ 0

/-- The half-open range of numbers from a start, up to `start + length`. The end may lie beyond 32
bits. -/
def rangeFrom (start length : UInt32) : Nat × Nat := (start.toNat, start.toNat + length.toNat)

/-- The block heights that are asked for. -/
def queriedBlocks : Contents .queryChannelRange → Nat × Nat
  | (_, first, count, ()) => rangeFrom first count

/-- The block heights that are answered for. -/
def repliedBlocks : Contents .replyChannelRange → Nat × Nat
  | (_, first, count, _, _, ()) => rangeFrom first count

/-- The timestamps of wanted gossip. -/
def timestamps : Contents .gossipTimestampRange → Nat × Nat
  | (_, first, length, ()) => rangeFrom first length

/-- Whether gossip of some `time` is wanted. -/
def wantsTimestamp (range : Contents .gossipTimestampRange) (time : UInt32) : Bool :=
  range.timestamps.1 ≤ time.toNat && time.toNat < range.timestamps.2

end PeerWire.Contents
