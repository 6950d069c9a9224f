import PeerWire.Message.Ping
import PeerWire.NodeAlias
import PeerWire.Sample.Filler
import PeerWire.Storage.Directory
import PeerWire.Message.LinkError

/-! # One sample of every message

The sample messages of a seed: one of each kind of the catalogue, by ascending tag, none with
extra bytes. All of them are drawn from one generator, in that order. Two things are left open, how
an id is packed from the location that is drawn for it and how a list of ids is compressed; the
samples of the program use `Location.pack` and `Zlib.compress`. -/

namespace PeerWire.Sample

open Randomness (Draw Generator)

/-- The first block of the main chain. -/
def mainChain : Blob .chainHash :=
  ⟨⟨[0x6f, 0xe2, 0x8c, 0x0a, 0xb6, 0xf1, 0xb3, 0x72, 0xc1, 0xa6, 0xa2, 0x46, 0xae, 0x63, 0xf7,
    0x4f, 0x93, 0x1e, 0x83, 0x65, 0xe1, 0x5a, 0x08, 0x9c, 0x68, 0xd6, 0x19, 0x00, 0x00, 0x00,
    0x00, 0x00], rfl⟩⟩

/-- The text of the sample error. -/
def errorData : Bytes := Utf8.encode "funding transaction never confirmed"

/-- A routing packet: a version byte, a key, and any bytes, `0 :: (key.bytes ++ payload)`. -/
def onionPacket (key : PublicKey) (payload : Octets 1332) : Blob .onionPacket :=
  ⟨⟨0 :: (key.bytes ++ payload.1), by simp [BlobKind.width, payload.2]⟩⟩

/-- A time within some years. -/
def timestamp : Draw UInt32 := return 1500000000 + (← Draw.u32) % 100000000

/-- The number of an offer. -/
def htlcId : Draw UInt64 := return (← Draw.u64) % 1000

/-- Draws the fields of a sample message. Ids are made of locations by `pack`, and lists of them by
`compress`. -/
def contents (compress : Bytes → Except CodecError Bytes) (pack : Location → ShortChannelId) :
    (kind : MessageKind) → Draw (Except CodecError (Contents kind))
  | .init => do
      let vector ← features
      return .ok (.empty, vector, ())
  | .error => do
      let channelId ← blob .channelId
      return .ok (channelId, errorData, ())
  | .ping => do
      let pongBytes ← Draw.u16
      let padding ← Draw.u16
      return Contents.ping (pongBytes % 64) (padding % 64)
  | .pong => do
      let length ← Draw.u16
      return .ok (List.replicate (length % 64).toNat 0, ())
  | .openChannel => do
      let channelId ← blob .channelId
      let funding ← satoshi
      let pushed ← milliSatoshi
      let inFlight ← milliSatoshi
      let reserve ← satoshi
      let rate ← feeRate
      let fundingKey ← publicKey
      let revocation ← publicKey
      let payment ← publicKey
      let delayed ← publicKey
      let htlc ← publicKey
      let firstPoint ← publicKey
      let announce ← Draw.flag
      return .ok (mainChain, channelId, funding, pushed, ⟨546⟩, inFlight, reserve, ⟨1000⟩, rate,
        144, 483, fundingKey, revocation, payment, delayed, htlc, firstPoint,
        if announce then 1 else 0, ())
  | .acceptChannel => do
      let channelId ← blob .channelId
      let inFlight ← milliSatoshi
      let reserve ← satoshi
      let fundingKey ← publicKey
      let revocation ← publicKey
      let payment ← publicKey
      let delayed ← publicKey
      let htlc ← publicKey
      let firstPoint ← publicKey
      return .ok (channelId, ⟨546⟩, inFlight, reserve, ⟨1000⟩, 3, 144, 483, fundingKey,
        revocation, payment, delayed, htlc, firstPoint, ())
  | .fundingCreated => do
      let channelId ← blob .channelId
      let txid ← blob .txid
      let index ← Draw.u16
      let signature ← blob .signature
      return .ok (channelId, txid, index % 4, signature, ())
  | .fundingSigned => do
      let channelId ← blob .channelId
      let signature ← blob .signature
      return .ok (channelId, signature, ())
  | .fundingLocked => do
      let channelId ← blob .channelId
      let point ← publicKey
      return .ok (channelId, point, ())
  | .shutdown => do
      let hash ← Draw.octets 20
      let channelId ← blob .channelId
      return .ok (channelId, 0x00 :: 0x14 :: hash.1, ())
  | .closingSigned => do
      let channelId ← blob .channelId
      let fee ← satoshi
      let signature ← blob .signature
      return .ok (channelId, fee, signature, ())
  | .updateAddHtlc => do
      let onionKey ← publicKey
      let onionPayload ← Draw.octets 1332
      let channelId ← blob .channelId
      let id ← htlcId
      let amount ← milliSatoshi
      let hash ← blob .sha256
      let expiry ← Draw.u32
      return .ok (channelId, id, amount, hash, 600000 + expiry % 10000,
        onionPacket onionKey onionPayload, ())
  | .updateFulfillHtlc => do
      let channelId ← blob .channelId
      let id ← htlcId
      let preimage ← blob .paymentPreimage
      return .ok (channelId, id, preimage, ())
  | .updateFailHtlc => do
      let channelId ← blob .channelId
      let id ← htlcId
      let reason ← Draw.octets 256
      return .ok (channelId, id, reason.1, ())
  | .commitmentSigned => do
      let count ← Draw.u16
      let channelId ← blob .channelId
      let signature ← blob .signature
      let htlcSignatures ← signatures (count % 4).toNat []
      return .ok (channelId, signature, htlcSignatures, ())
  | .revokeAndAck => do
      let channelId ← blob .channelId
      let secret ← blob .secret
      let point ← publicKey
      return .ok (channelId, secret, point, ())
  | .updateFee => do
      let channelId ← blob .channelId
      let rate ← feeRate
      return .ok (channelId, rate, ())
  | .updateFailMalformedHtlc => do
      let channelId ← blob .channelId
      let id ← htlcId
      let hash ← blob .sha256
      return .ok (channelId, id, hash, 0x8000 ||| 0x4000 ||| 5, ())
  | .channelReestablish => do
      let channelId ← blob .channelId
      let commitment ← Draw.u64
      let revocation ← Draw.u64
      let secret ← blob .secret
      let point ← publicKey
      return .ok (channelId, commitment % 10000, revocation % 10000, secret, point, ())
  | .channelAnnouncement => do
      let nodeSignature1 ← blob .signature
      let nodeSignature2 ← blob .signature
      let bitcoinSignature1 ← blob .signature
      let bitcoinSignature2 ← blob .signature
      let place ← location
      let nodeId1 ← publicKey
      let nodeId2 ← publicKey
      let bitcoinKey1 ← publicKey
      let bitcoinKey2 ← publicKey
      return .ok (nodeSignature1, nodeSignature2, bitcoinSignature1, bitcoinSignature2, .empty,
        mainChain, pack place, nodeId1, nodeId2, bitcoinKey1, bitcoinKey2, ())
  | .nodeAnnouncement => do
      let color ← blob .rgbColor
      let onionKey ← Draw.octets 32
      let checksum ← Draw.u16
      let signature ← blob .signature
      let features ← features
      let time ← timestamp
      let nodeId ← publicKey
      let suffix ← Draw.u16
      return .ok (signature, features, time, nodeId, color,
        NodeAlias.ofText ("fixture-" ++ Text.hexWord suffix.toNat),
        .ofAddresses [.ipv4 ⟨[127, 0, 0, 1], rfl⟩ 9735, .onionV3 onionKey checksum 3 9735], ())
  | .channelUpdate => do
      let signature ← blob .signature
      let place ← location
      let time ← timestamp
      let direction ← Draw.flag
      let maximum ← milliSatoshi
      return .ok (signature, mainChain, pack place, time, 1, if direction then 1 else 0, 40, ⟨1000⟩,
        1000, 1, maximum, ())
  | .announcementSignatures => do
      let channelId ← blob .channelId
      let place ← location
      let nodeSignature ← blob .signature
      let bitcoinSignature ← blob .signature
      return .ok (channelId, pack place, nodeSignature, bitcoinSignature, ())
  | .queryShortChannelIds => do
      let ids ← shortChannelIds pack 3 []
      return .ok (mainChain, .plain ids, ())
  | .replyShortChannelIdsEnd => do
      let complete ← Draw.flag
      return .ok (mainChain, complete, ())
  | .queryChannelRange => do
      let first ← Draw.u32
      return .ok (mainChain, 500000 + first % 100000, 1000, ())
  | .replyChannelRange => do
      let ids ← shortChannelIds pack 4 []
      return do
        let list ← IdList.zlibWith compress (ShortChannelId.sort ids)
        return (mainChain, 500000, 400000, true, list, ())
  | .gossipTimestampRange => do
      let first ← timestamp
      return .ok (mainChain, first, 86400, ())

/-- Why there are no samples or no sample file. -/
inductive Failure where
  /-- A sample message cannot be built. -/
  | build (name : String) (cause : CodecError)
  /-- The file cannot be written or read as messages. -/
  | stream (cause : LinkError)
  /-- The file cannot be opened. -/
  | file (path : String) (fault : FileFault)
  deriving DecidableEq, Repr

/-- The wording of a failure. -/
def Failure.message : Failure → String
  | .build name cause => s!"building {name}: {cause.message}"
  | .stream cause => cause.message
  | .file path fault => s!"{path}: {fault.message}"

/-- Draws sample messages of the given `kinds`, in their order. -/
def drawMessages (compress : Bytes → Except CodecError Bytes)
    (pack : Location → ShortChannelId) : List MessageKind → Draw (Except Failure (List Message))
  | [] => return .ok []
  | kind :: kinds => do
      match ← contents compress pack kind with
      | .error cause => return .error (.build kind.name cause)
      | .ok values =>
          match ← drawMessages compress pack kinds with
          | .error failure => return .error failure
          | .ok messages => return .ok (.known kind values [] :: messages)

/-- The sample messages of a seed, with a compressor that may fail: those that `Generator.ofSeed
seed` gives. -/
def messagesWith (compress : Bytes → Except CodecError Bytes) (seed : UInt64) :
    Except Failure (List Message) :=
  (drawMessages compress Location.pack MessageKind.all).value (.ofSeed seed)

/-- The compressor of the samples, `Zlib.compress`, which never fails. -/
def compressor (bytes : Bytes) : Except CodecError Bytes := .ok (Zlib.compress bytes)

/-- The sample messages of a seed: `messagesWith compressor seed`. -/
def messages (seed : UInt64) : Except Failure (List Message) := messagesWith compressor seed

end PeerWire.Sample
